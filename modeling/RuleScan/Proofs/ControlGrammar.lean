import RuleScan.Proofs.BlockNesting

/-!
# The grammar of blocks

The control structure of bytecode has blocks, loops and conditionals, and a conditional may have one
alternative. Instructions that fit the blocks open before them and leave none open are nested in this
way, except that a conditional can have got any number of alternatives: an open conditional is not
marked when its alternative begins. They are a sentence of the grammar exactly if no conditional has a
second one.
-/
namespace RuleScan

namespace Instr

/-- Whether an instruction begins the alternative of a conditional. -/
def alternates (i : Instr) : Bool := Opcode.ofByte? i.opcode = some .else_

/-- Whether an instruction neither opens, divides nor closes a block. -/
def isPlain (i : Instr) : Bool := !i.opens && !i.alternates && !i.closes

/-- The sentences of the grammar: plain instructions, blocks, loops, and conditionals with an
alternative or without. -/
inductive Structured : List Instr → Prop where
  | nil : Structured []
  | plain {i : Instr} {rest : List Instr} :
      i.isPlain = true → Structured rest → Structured (i :: rest)
  /-- A block, a loop, or a conditional without an alternative. -/
  | block {i last : Instr} {body rest : List Instr} :
      i.opens = true → Structured body → last.closes = true → Structured rest →
      Structured (i :: (body ++ last :: rest))
  | ifElse {i middle last : Instr} {body alternative rest : List Instr} :
      i.opener? = some .if_ → Structured body → middle.alternates = true →
      Structured alternative → last.closes = true → Structured rest →
      Structured (i :: (body ++ middle :: (alternative ++ last :: rest)))

/-- Nested instructions that are divided by `n` alternatives, not counting those of the blocks within
them. Only what a conditional holds may be divided, but any number of times. -/
inductive Nested : Nat → List Instr → Prop where
  | nil : Nested 0 []
  | plain {n : Nat} {is : List Instr} {i : Instr} :
      Nested n is → i.isPlain = true → Nested n (is ++ [i])
  | alternative {n : Nat} {is : List Instr} {i : Instr} :
      Nested n is → i.alternates = true → Nested (n + 1) (is ++ [i])
  | block {n k : Nat} {is body : List Instr} {i last : Instr} {o : Opener} :
      Nested n is → i.opener? = some o → Nested k body → (o ≠ .if_ → k = 0) →
      last.closes = true → Nested n (is ++ i :: (body ++ [last]))

/-- Some conditional has a second alternative: there is nothing but whole blocks and plain
instructions between the beginnings of the two. -/
def RepeatsElse (is : List Instr) : Prop :=
  ∃ before first between second after, is = before ++ first :: (between ++ second :: after) ∧
    first.alternates = true ∧ Nested 0 between ∧ second.alternates = true

/-! ### Kinds of instructions -/

theorem alternates_iff {i : Instr} : i.alternates = true ↔ Opcode.ofByte? i.opcode = some .else_ :=
  decide_eq_true_iff

theorem opens_of_opener? {i : Instr} {o : Opener} (h : i.opener? = some o) : i.opens = true := by
  rw [opens, h]
  rfl

theorem alternates_of_opens {i : Instr} (h : i.opens = true) : i.alternates = false := by
  unfold opens opener? at h
  unfold alternates
  split at h <;> simp_all

theorem of_alternates {i : Instr} (h : i.alternates = true) :
    i.opener? = none ∧ i.opens = false ∧ i.closes = false := by
  rw [alternates_iff] at h
  simp [opens, opener?, closes, h]

theorem of_closes {i : Instr} (h : i.closes = true) : i.opens = false ∧ i.alternates = false := by
  rw [closes_iff] at h
  simp [opens, opener?, alternates, h]

theorem isPlain_iff {i : Instr} :
    i.isPlain = true ↔ i.opens = false ∧ i.alternates = false ∧ i.closes = false := by
  simp [isPlain, and_assoc]

/-! ### From open blocks to nested instructions -/

theorem Nested.append {n k : Nat} {is js : List Instr} (hi : Nested n is) (hj : Nested k js) :
    Nested (n + k) (is ++ js) := by
  induction hj with
  | nil => rwa [List.append_nil]
  | plain _ hplain ih =>
    rw [← List.append_assoc]
    exact ih.plain hplain
  | alternative _ halternates ih =>
    rw [← List.append_assoc]
    exact ih.alternative halternates
  | block _ hopener hbody hwhole hcloses ih _ =>
    rw [← List.append_assoc]
    exact ih.block hopener hbody hwhole hcloses

/-- Instructions that leave blocks open: in each of them there are nested instructions so far. -/
inductive Unclosed : List Opener → List Instr → Prop where
  | outermost {is : List Instr} : Nested 0 is → Unclosed [] is
  | inside {n : Nat} {outer : List Opener} {before body : List Instr} {i : Instr} {o : Opener} :
      Unclosed outer before → i.opener? = some o → Nested n body → (o ≠ .if_ → n = 0) →
      Unclosed (o :: outer) (before ++ i :: body)

theorem Unclosed.append {opened : List Opener} {is js : List Instr} (hi : Unclosed opened is)
    (hj : Nested 0 js) : Unclosed opened (is ++ js) := by
  cases hi with
  | outermost hnested => exact .outermost (hnested.append hj)
  | inside hbefore hopener hbody hwhole =>
    rw [List.append_assoc, List.cons_append]
    exact .inside hbefore hopener (hbody.append hj) hwhole

/-- An instruction that fits the open blocks goes to the innermost of them, opens another one inside
it, or closes it. -/
theorem Unclosed.concat {opened : List Opener} {is : List Instr} {i : Instr}
    (h : Unclosed opened is) (hfits : ∀ m, ¬ i.Misuses opened m) :
    Unclosed (nest opened i) (is ++ [i]) := by
  cases hopener : i.opener? with
  | some o =>
    have hnest : nest opened i = o :: opened := by rw [nest, hopener]
    rw [hnest]
    exact .inside h hopener .nil fun _ => rfl
  | none =>
    have hopens : i.opens = false := by rw [opens, hopener]; rfl
    by_cases hcloses : i.closes = true
    · have hnest : nest opened i = opened.tail := by rw [nest, hopener]; exact if_pos hcloses
      rw [hnest]
      cases h with
      | outermost => exact absurd (.strayEnd hcloses rfl) (hfits .strayEnd)
      | @inside n outer before body first o hbefore hfirst hbody hwhole =>
        have hwhole : Nested 0 (first :: (body ++ [i])) := Nested.nil.block hfirst hbody hwhole hcloses
        rw [List.append_assoc, List.cons_append]
        exact hbefore.append hwhole
    · have hnest : nest opened i = opened := by rw [nest, hopener]; exact if_neg hcloses
      rw [hnest]
      by_cases halternates : i.alternates = true
      · have hif : opened.head? = some .if_ := Decidable.not_not.mp fun hno =>
          hfits .strayElse (.strayElse (alternates_iff.mp halternates) hno)
        cases h with
        | outermost => contradiction
        | inside hbefore hfirst hbody hwhole =>
          obtain rfl := Option.some.inj hif
          rw [List.append_assoc, List.cons_append]
          exact .inside hbefore hfirst (hbody.alternative halternates) fun hne => absurd rfl hne
      · have hplain : i.isPlain = true :=
          isPlain_iff.mpr ⟨hopens, by simpa using halternates, by simpa using hcloses⟩
        exact h.append (Nested.nil.plain hplain)

theorem AllFit.unclosed {is : List Instr} (h : AllFit is) : Unclosed (openBlocks is) is := by
  induction is using List.reverseRecOn with
  | nil => exact .outermost .nil
  | append_singleton is i ih =>
    obtain ⟨his, hi⟩ := allFit_concat.mp h
    rw [openBlocks_concat]
    exact (ih his).concat hi

/-- Instructions that fit and leave no block open are nested. -/
theorem AllFit.nested {is : List Instr} (h : AllFit is) (hclosed : openBlocks is = []) :
    Nested 0 is := by
  have hunclosed := h.unclosed
  rw [hclosed] at hunclosed
  cases hunclosed with
  | outermost hnested => exact hnested

/-! ### Second alternatives -/

/-- How many alternatives have begun in each open block, the innermost first. -/
def tally (counts : List Nat) (i : Instr) : List Nat :=
  if i.opens then 0 :: counts
  else if i.closes then counts.tail
  else if i.alternates then counts.modifyHead (· + 1)
  else counts

def tallyAll (counts : List Nat) (is : List Instr) : List Nat := is.foldl tally counts

theorem tallyAll_append (counts : List Nat) (is js : List Instr) :
    tallyAll counts (is ++ js) = tallyAll (tallyAll counts is) js := List.foldl_append

theorem tally_opens {i : Instr} (h : i.opens = true) (counts : List Nat) :
    tally counts i = 0 :: counts := by simp [tally, h]

theorem tally_closes {i : Instr} (h : i.closes = true) (k : Nat) (outer : List Nat) :
    tally (k :: outer) i = outer := by simp [tally, h, of_closes h]

theorem tally_alternates {i : Instr} (h : i.alternates = true) (k : Nat) (outer : List Nat) :
    tally (k :: outer) i = (k + 1) :: outer := by simp [tally, h, of_alternates h]

theorem tally_plain {i : Instr} (h : i.isPlain = true) (counts : List Nat) :
    tally counts i = counts := by simp [tally, isPlain_iff.mp h]

/-- Nested instructions change the count of the block that they are in, and no other. -/
theorem Nested.tallyAll {n : Nat} {is : List Instr} (h : Nested n is) (k : Nat) (outer : List Nat) :
    tallyAll (k :: outer) is = (k + n) :: outer := by
  induction h generalizing k outer with
  | nil => rfl
  | plain _ hplain ih =>
    rw [tallyAll_append, ih]
    exact tally_plain hplain _
  | alternative _ halternates ih =>
    rw [tallyAll_append, ih]
    exact tally_alternates halternates _ _
  | @block n j is body i last o _ hopener _ _ hcloses ih ihbody =>
    have hopen : Instr.tallyAll ((k + n) :: outer) (i :: (body ++ [last])) =
        Instr.tallyAll (Instr.tally ((k + n) :: outer) i) (body ++ [last]) := rfl
    rw [tallyAll_append, ih, hopen, tally_opens (opens_of_opener? hopener), tallyAll_append, ihbody]
    exact tally_closes hcloses _ _

/-- An alternative begins only in a block that has none yet. -/
def BeginsOnce : List Nat → List Instr → Prop
  | _, [] => True
  | counts, i :: is =>
    (i.alternates = true → counts.head? = some 0) ∧ BeginsOnce (tally counts i) is

theorem beginsOnce_append {counts : List Nat} {is js : List Instr} :
    BeginsOnce counts (is ++ js) ↔ BeginsOnce counts is ∧ BeginsOnce (tallyAll counts is) js := by
  induction is generalizing counts with
  | nil => simp [BeginsOnce, tallyAll]
  | cons i is ih =>
    have hstep : tallyAll counts (i :: is) = tallyAll (tally counts i) is := rfl
    rw [List.cons_append, BeginsOnce, BeginsOnce, ih, hstep, and_assoc]

theorem beginsOnce_cons {i : Instr} (h : i.alternates = false) {counts : List Nat}
    {is : List Instr} : BeginsOnce counts (i :: is) ↔ BeginsOnce (tally counts i) is := by
  simp [BeginsOnce, h]

theorem RepeatsElse.not_beginsOnce {is : List Instr} (h : RepeatsElse is) (counts : List Nat) :
    ¬ BeginsOnce counts is := by
  obtain ⟨before, first, between, second, after, rfl, hfirst, hbetween, hsecond⟩ := h
  intro honce
  obtain ⟨_, hzero, honce⟩ := beginsOnce_append.mp honce
  obtain ⟨outer, hcounts⟩ := List.head?_eq_some_iff.mp (hzero hfirst)
  rw [hcounts, tally_alternates hfirst] at honce
  obtain ⟨_, hzero, _⟩ := beginsOnce_append.mp honce
  rw [hbetween.tallyAll] at hzero
  exact absurd (hzero hsecond) (by simp)

/-! ### Sentences -/

theorem Structured.append {is js : List Instr} (hi : Structured is) (hj : Structured js) :
    Structured (is ++ js) := by
  induction hi with
  | nil => exact hj
  | plain hplain _ ih => exact .plain hplain ih
  | block hopens hbody hcloses _ _ ih =>
    rw [List.cons_append, List.append_assoc, List.cons_append]
    exact .block hopens hbody hcloses ih
  | ifElse hopener hbody hmiddle halternative hcloses _ _ _ ih =>
    rw [List.cons_append, List.append_assoc, List.cons_append, List.append_assoc, List.cons_append]
    exact .ifElse hopener hbody hmiddle halternative hcloses ih

/-- A sentence is nested, without a division of its own. -/
theorem Structured.nested {is : List Instr} (h : Structured is) : Nested 0 is := by
  induction h with
  | nil => exact .nil
  | plain hplain _ ih => exact (Nested.nil.plain hplain).append ih
  | @block i last body rest hopens _ hcloses _ ihbody ihrest =>
    obtain ⟨o, hopener⟩ := Option.isSome_iff_exists.mp hopens
    have hwhole : Nested 0 (i :: (body ++ [last])) :=
      Nested.nil.block hopener ihbody (fun _ => rfl) hcloses
    simpa using hwhole.append ihrest
  | @ifElse i middle last body alternative rest hopener _ hmiddle _ hcloses _ ihbody ihother ihrest =>
    have hdivided : Nested 1 ((body ++ [middle]) ++ alternative) :=
      (ihbody.alternative hmiddle).append ihother
    have hwhole : Nested 0 (i :: (((body ++ [middle]) ++ alternative) ++ [last])) :=
      Nested.nil.block hopener hdivided (fun hne => absurd rfl hne) hcloses
    simpa using hwhole.append ihrest

/-- In a sentence every alternative is the only one of its conditional, whatever is around it. -/
theorem Structured.beginsOnce {is : List Instr} (h : Structured is) (counts : List Nat) :
    BeginsOnce counts is := by
  induction h generalizing counts with
  | nil => trivial
  | plain hplain _ ih => exact (beginsOnce_cons (isPlain_iff.mp hplain).2.1).mpr (ih _)
  | block hopens hbody hcloses _ ihbody ihrest =>
    rw [beginsOnce_cons (alternates_of_opens hopens), tally_opens hopens, beginsOnce_append,
      hbody.nested.tallyAll, beginsOnce_cons (of_closes hcloses).2, tally_closes hcloses]
    exact ⟨ihbody _, ihrest _⟩
  | ifElse hopener hbody hmiddle hother hcloses _ ihbody ihother ihrest =>
    have hopens := opens_of_opener? hopener
    rw [beginsOnce_cons (alternates_of_opens hopens), tally_opens hopens, beginsOnce_append,
      hbody.nested.tallyAll, BeginsOnce, tally_alternates hmiddle, beginsOnce_append,
      hother.nested.tallyAll, beginsOnce_cons (of_closes hcloses).2, tally_closes hcloses]
    exact ⟨ihbody _, fun _ => rfl, ihother _, ihrest _⟩

/-- What a conditional of the grammar holds: a sentence, or two that an alternative divides. -/
inductive Arms : Nat → List Instr → Prop where
  | one {is : List Instr} : Structured is → Arms 0 is
  | two {body alternative : List Instr} {middle : Instr} :
      Structured body → middle.alternates = true → Structured alternative →
      Arms 1 (body ++ middle :: alternative)

theorem Arms.append {n : Nat} {is js : List Instr} (hi : Arms n is) (hj : Structured js) :
    Arms n (is ++ js) := by
  cases hi with
  | one hbody => exact .one (hbody.append hj)
  | two hbody hmiddle hother =>
    rw [List.append_assoc, List.cons_append]
    exact .two hbody hmiddle (hother.append hj)

theorem Arms.enclosed {n : Nat} {body : List Instr} {i last : Instr} {o : Opener}
    (h : Arms n body) (hopener : i.opener? = some o) (hwhole : o ≠ .if_ → n = 0)
    (hcloses : last.closes = true) : Structured (i :: (body ++ [last])) := by
  cases h with
  | one hbody => exact .block (opens_of_opener? hopener) hbody hcloses .nil
  | two hbody hmiddle hother =>
    obtain rfl : o = .if_ := Decidable.not_not.mp fun hne => absurd (hwhole hne) (by decide)
    rw [List.append_assoc, List.cons_append]
    exact .ifElse hopener hbody hmiddle hother hcloses .nil

theorem RepeatsElse.within {is : List Instr} (h : RepeatsElse is) (front back : List Instr) :
    RepeatsElse (front ++ (is ++ back)) := by
  obtain ⟨before, first, between, second, after, rfl, hfirst, hbetween, hsecond⟩ := h
  exact ⟨front ++ before, first, between, second, after ++ back, by simp, hfirst, hbetween, hsecond⟩

/-- Nested instructions without a second alternative in any conditional are of the grammar. -/
theorem Nested.arms {n : Nat} {is : List Instr} (h : Nested n is) (honce : ¬ RepeatsElse is) :
    Arms n is := by
  induction h with
  | nil => exact .one .nil
  | @plain n is i _ hplain ih =>
    have hbefore : ¬ RepeatsElse is := fun hrepeats => honce (hrepeats.within [] [i])
    exact (ih hbefore).append (.plain hplain .nil)
  | @alternative n is i _ halternates ih =>
    have hbefore : ¬ RepeatsElse is := fun hrepeats => honce (hrepeats.within [] [i])
    cases ih hbefore with
    | one hbody => exact .two hbody halternates .nil
    | @two body other middle _ hmiddle hother =>
      exact absurd ⟨body, middle, other, i, [], by simp, hmiddle, hother.nested, halternates⟩ honce
  | @block n k is body i last o _ hopener _ hwhole hcloses ih ihbody =>
    have hbefore : ¬ RepeatsElse is := fun hrepeats => honce (hrepeats.within [] _)
    have hinside : ¬ RepeatsElse body := by
      intro hrepeats
      have hall := hrepeats.within (is ++ [i]) [last]
      rw [List.append_assoc] at hall
      exact honce hall
    exact (ih hbefore).append ((ihbody hinside).enclosed hopener hwhole hcloses)

/-- Nested instructions are a sentence exactly if no conditional has a second alternative. -/
theorem Nested.structured_iff {is : List Instr} (h : Nested 0 is) :
    Structured is ↔ ¬ RepeatsElse is := by
  constructor
  · intro hstructured hrepeats
    exact hrepeats.not_beginsOnce [] (hstructured.beginsOnce [])
  · intro honce
    cases h.arms honce with
    | one hstructured => exact hstructured

end Instr

end RuleScan
