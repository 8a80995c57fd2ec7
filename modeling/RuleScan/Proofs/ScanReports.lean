import RuleScan.Proofs.FirstOccurrences
import RuleScan.ScanState

/-!
# What a scan records

A scan that was given reports of rules that exist lists each of them once, in the order of the first
reports, and has exactly their bits set. One report extends the reports so far by one; the rest is
by induction on the reports. Other reports are ignored, and so is every report that was made before:
making the same reports a second time changes nothing.
-/
namespace RuleScan

theorem exists_mem_concat {α : Type} {p : α → Prop} (xs : List α) (a : α) :
    (∃ x ∈ xs ++ [a], p x) ↔ (∃ x ∈ xs, p x) ∨ p a := by
  simp only [List.mem_append, List.mem_singleton, or_and_right, exists_or, exists_eq_left]

/-! ### Rows of bits -/

namespace BitRow

theorem test_new (n i : Nat) : (new n).test i = false := by
  rw [new, test, Array.getD_eq_getD_getElem?, Array.getElem?_replicate]
  generalize (if n ≤ maxBits then n else 0) = m
  split <;> rfl

/-- A row has the bits that it was made with, if there are not too many. -/
theorem size_new {n : Nat} (h : n ≤ maxBits) : (new n).size = n := by
  rw [new, Array.size_replicate, if_pos h]

variable (r : BitRow) (i : Nat)

theorem size_setBit : (r.setBit i).size = max r.size (i + 1) := by
  rw [setBit, Array.size_setIfInBounds]
  split
  · omega
  · rw [Array.size_append, Array.size_replicate]
    omega

/-- Setting a bit sets no other, however the row grows for it. -/
theorem test_setBit (j : Nat) : (r.setBit i).test j = (decide (j = i) || r.test j) := by
  have hgrown (n : Nat) : (r ++ Array.replicate n false).getD j false = r.getD j false := by
    simp only [Array.getD_eq_getD_getElem?, Array.getElem?_append, Array.getElem?_replicate]
    split
    · rfl
    · rename_i hlt
      rw [Array.getElem?_eq_none (Nat.le_of_not_lt hlt)]
      split <;> rfl
  have hsize := size_setBit r i
  unfold setBit at hsize ⊢
  simp only [test]
  by_cases hj : j = i
  · subst hj
    rw [decide_eq_true rfl, Bool.true_or, Array.getD_eq_getD_getElem?,
      Array.getElem?_setIfInBounds, if_pos rfl, if_pos (by
        rw [Array.size_setIfInBounds] at hsize
        omega)]
    rfl
  · rw [decide_eq_false hj, Bool.false_or, Array.getD_eq_getD_getElem?,
      Array.getElem?_setIfInBounds, if_neg (Ne.symm hj), ← Array.getD_eq_getD_getElem?]
    split
    · rfl
    · exact hgrown _

/-- Setting a clear bit adds one to the bits that are set. -/
theorem count_setBit (h : r.test i = false) : (r.setBit i).count true = r.count true + 1 := by
  have hset (q : Array Bool) (hlt : i < q.size) (hclear : q.getD i false = false) :
      (q.setIfInBounds i true).count true = q.count true + 1 := by
    rw [Array.getD, dif_pos hlt] at hclear
    rw [Array.setIfInBounds_def, dif_pos hlt, Array.count_set, show q[i] = false from hclear]
    rfl
  rw [setBit]
  split
  · rename_i hlt
    exact hset r hlt h
  · rename_i hlt
    have hnone : (Array.replicate (i + 1 - r.size) false).count true = 0 := by
      simp [Array.count_replicate]
    have hlong : i < (r ++ Array.replicate (i + 1 - r.size) false).size := by
      rw [Array.size_append, Array.size_replicate]
      omega
    rw [hset _ hlong, Array.count_append, hnone]
    simp only [Array.getD_eq_getD_getElem?, Array.getElem?_append, if_neg hlt,
      Array.getElem?_replicate]
    split <;> rfl

end BitRow

/-! ### Single reports -/

namespace ScanState

@[simp] theorem new_index (n : Int) (index : PatternSource) : (new n index).index = index := rfl

/-- A report of the rule changes nothing: there is no such rule, or it was reported before. -/
def Ignores (s : ScanState) (id : RuleId) : Prop :=
  (id < 0 ∨ s.numRules ≤ id.toInt.toNat) ∨ s.matching.test id.toInt.toNat = true

/-- What a report does: nothing, or it sets the bit of the rule and lists it. -/
theorem ruleMatch_cases (s : ScanState) (id : RuleId) :
    (s.Ignores id ∧ s.ruleMatch id = s) ∨
    (¬ s.Ignores id ∧ s.ruleMatch id = { s with
      matching := s.matching.setBit id.toInt.toNat
      latest := id :: s.latest }) := by
  by_cases hrange : id < 0 ∨ s.numRules ≤ id.toInt.toNat
  · exact .inl ⟨.inl hrange, if_pos hrange⟩
  · by_cases hbit : s.matching.test id.toInt.toNat = true
    · exact .inl ⟨.inr hbit, by rw [ruleMatch, if_neg hrange, if_pos hbit]⟩
    · exact .inr ⟨not_or.mpr ⟨hrange, hbit⟩, by rw [ruleMatch, if_neg hrange, if_neg hbit]⟩

/-- A report that is not ignored is of a rule whose bit is clear. -/
theorem test_of_not_ignores {s : ScanState} {id : RuleId} (h : ¬ s.Ignores id) :
    s.matching.test id.toInt.toNat = false :=
  Bool.eq_false_iff.mpr fun hbit => h (.inr hbit)

@[simp] theorem ruleMatch_index (s : ScanState) (id : RuleId) :
    (s.ruleMatch id).index = s.index := by
  rcases ruleMatch_cases s id with ⟨_, heq⟩ | ⟨_, heq⟩ <;> rw [heq]

@[simp] theorem ruleMatch_numRules (s : ScanState) (id : RuleId) :
    (s.ruleMatch id).numRules = s.numRules := by
  rcases ruleMatch_cases s id with ⟨_, heq⟩ | ⟨_, heq⟩ <;> rw [heq]

/-- The state after reports of the given rules in turn. -/
def ruleMatchAll (s : ScanState) (ids : List RuleId) : ScanState := ids.foldl ruleMatch s

@[simp] theorem ruleMatchAll_nil (s : ScanState) : s.ruleMatchAll [] = s := rfl

theorem ruleMatchAll_cons (s : ScanState) (id : RuleId) (ids : List RuleId) :
    s.ruleMatchAll (id :: ids) = (s.ruleMatch id).ruleMatchAll ids := rfl

theorem ruleMatchAll_append (s : ScanState) (ids more : List RuleId) :
    s.ruleMatchAll (ids ++ more) = (s.ruleMatchAll ids).ruleMatchAll more := List.foldl_append

@[simp] theorem ruleMatchAll_index (s : ScanState) (ids : List RuleId) :
    (s.ruleMatchAll ids).index = s.index := by
  induction ids generalizing s with
  | nil => rfl
  | cons id ids ih => rw [ruleMatchAll_cons, ih, ruleMatch_index]

/-- What is recorded of reports does not depend on the index. -/
theorem ruleMatch_withIndex (s : ScanState) (index : PatternSource) (id : RuleId) :
    { s with index := index }.ruleMatch id = { s.ruleMatch id with index := index } := by
  rcases ruleMatch_cases s id with ⟨hignores, heq⟩ | ⟨hnot, heq⟩
  · rcases ruleMatch_cases { s with index := index } id with ⟨_, hother⟩ | ⟨hnot, _⟩
    · rw [heq, hother]
    · exact absurd hignores hnot
  · rcases ruleMatch_cases { s with index := index } id with ⟨hignores, _⟩ | ⟨_, hother⟩
    · exact absurd hignores hnot
    · rw [heq, hother]

theorem ruleMatchAll_withIndex (s : ScanState) (index : PatternSource) (ids : List RuleId) :
    { s with index := index }.ruleMatchAll ids = { s.ruleMatchAll ids with index := index } := by
  induction ids generalizing s with
  | nil => rfl
  | cons id ids ih => rw [ruleMatchAll_cons, ruleMatch_withIndex, ih, ruleMatchAll_cons]

/-! ### Reports that change nothing -/

theorem Ignores.ruleMatch_eq {s : ScanState} {id : RuleId} (h : s.Ignores id) :
    s.ruleMatch id = s := by
  rcases ruleMatch_cases s id with ⟨_, heq⟩ | ⟨hnot, _⟩
  · exact heq
  · exact absurd h hnot

theorem ignores_ruleMatch_self (s : ScanState) (id : RuleId) : (s.ruleMatch id).Ignores id := by
  rcases ruleMatch_cases s id with ⟨hignores, heq⟩ | ⟨hnot, heq⟩
  · rwa [heq]
  · right
    rw [heq, BitRow.test_setBit, decide_eq_true rfl, Bool.true_or]

/-- What is ignored stays ignored. -/
theorem Ignores.ruleMatch {s : ScanState} {id : RuleId} (h : s.Ignores id) (other : RuleId) :
    (s.ruleMatch other).Ignores id := by
  rcases h with hrange | hbit
  · left
    rwa [ruleMatch_numRules]
  · right
    rcases ruleMatch_cases s other with ⟨_, heq⟩ | ⟨hnot, heq⟩
    · rwa [heq]
    · rw [heq, BitRow.test_setBit, hbit, Bool.or_true]

theorem Ignores.ruleMatchAll {s : ScanState} {id : RuleId} (h : s.Ignores id) (ids : List RuleId) :
    (s.ruleMatchAll ids).Ignores id := by
  induction ids generalizing s with
  | nil => exact h
  | cons other ids ih => exact ih (h.ruleMatch other)

theorem ignores_ruleMatchAll (s : ScanState) {ids : List RuleId} {id : RuleId} (h : id ∈ ids) :
    (s.ruleMatchAll ids).Ignores id := by
  obtain ⟨before, after, rfl⟩ := List.append_of_mem h
  rw [ruleMatchAll_append, ruleMatchAll_cons]
  exact (ignores_ruleMatch_self _ id).ruleMatchAll after

theorem ruleMatchAll_of_ignores {s : ScanState} {ids : List RuleId}
    (h : ∀ id ∈ ids, s.Ignores id) : s.ruleMatchAll ids = s := by
  induction ids with
  | nil => rfl
  | cons id ids ih =>
    obtain ⟨hid, hids⟩ := List.forall_mem_cons.mp h
    rw [ruleMatchAll_cons, hid.ruleMatch_eq, ih hids]

/-- The same reports a second time change nothing. -/
theorem ruleMatchAll_twice (s : ScanState) (ids : List RuleId) :
    (s.ruleMatchAll ids).ruleMatchAll ids = s.ruleMatchAll ids :=
  ruleMatchAll_of_ignores fun _ hid => ignores_ruleMatchAll s hid

/-! ### The reports of a scan -/

/-- The scan of `n` rules was given these reports. Its row of bits is as long as it was made, or as the
reports have made it. -/
structure Records (s : ScanState) (n : Nat) (ids : List RuleId) : Prop where
  numRules : s.numRules = n
  reported : s.reported = ids.eraseDups
  bit : ∀ i : Nat, s.matching.test i = true ↔ ∃ id ∈ ids, id.toInt = i
  length : ∀ i : Nat, i < s.matching.size ↔
    i < (BitRow.new n).size ∨ ∃ id ∈ ids, (i : Int) ≤ id.toInt

theorem records_new (n : Nat) (index : PatternSource) : (new n index).Records n [] where
  numRules := rfl
  reported := rfl
  bit i := by simp [new, BitRow.test_new]
  length i := by simp [new]

variable {s : ScanState} {n : Nat} {ids : List RuleId}

theorem Records.bit_iff_mem (h : s.Records n ids) {id : RuleId} (hlow : 0 ≤ id.toInt) :
    s.matching.test id.toInt.toNat = true ↔ id ∈ ids := by
  rw [h.bit]
  constructor
  · rintro ⟨other, hmem, heq⟩
    have hsame : other = id := Int32.toInt_inj.mp (by omega)
    rwa [← hsame]
  · intro hmem
    exact ⟨id, hmem, by omega⟩

/-- A report of a rule that exists is recorded, unless there was one before. -/
theorem Records.ruleMatch (h : s.Records n ids) {id : RuleId} (hlow : 0 ≤ id.toInt)
    (hhigh : id.toInt < n) : (s.ruleMatch id).Records n (ids ++ [id]) := by
  have hcount := h.numRules
  have hknown : ¬ (id < 0 ∨ s.numRules ≤ id.toInt.toNat) := by
    have hzero : (0 : Int32).toInt = 0 := rfl
    rw [Int32.lt_iff_toInt_lt]
    omega
  rw [ScanState.ruleMatch, if_neg hknown]
  by_cases hmem : id ∈ ids
  · have hbefore {p : RuleId → Prop} : (∃ other ∈ ids ++ [id], p other) ↔ ∃ other ∈ ids, p other := by
      rw [exists_mem_concat, or_iff_left_of_imp]
      exact fun hid => ⟨id, hmem, hid⟩
    rw [if_pos ((h.bit_iff_mem hlow).mpr hmem)]
    refine ⟨hcount, ?_, ?_, ?_⟩
    · rw [eraseDups_concat, if_pos hmem, h.reported]
    · intro i
      rw [h.bit, hbefore]
    · intro i
      rw [h.length, hbefore]
  · rw [if_neg (fun hbit => hmem ((h.bit_iff_mem hlow).mp hbit))]
    refine ⟨hcount, ?_, ?_, ?_⟩
    · have hreported : s.latest.reverse = ids.eraseDups := h.reported
      rw [eraseDups_concat, if_neg hmem, ← hreported]
      exact List.reverse_cons
    · intro i
      rw [exists_mem_concat, ← h.bit, BitRow.test_setBit, Bool.or_eq_true, decide_eq_true_eq, or_comm]
      refine or_congr_right ?_
      omega
    · intro i
      rw [exists_mem_concat, ← or_assoc, ← h.length, BitRow.size_setBit]
      omega

/-- Reports of rules that exist are recorded in turn. -/
theorem Records.foldl_ruleMatch (h : s.Records n ids) {more : List RuleId}
    (hrange : ∀ id ∈ more, 0 ≤ id.toInt ∧ id.toInt < n) :
    (more.foldl ScanState.ruleMatch s).Records n (ids ++ more) := by
  induction more generalizing s ids with
  | nil => rwa [List.append_nil]
  | cons id more ih =>
    obtain ⟨⟨hlow, hhigh⟩, hmore⟩ := List.forall_mem_cons.mp hrange
    have hrest := ih (h.ruleMatch hlow hhigh) hmore
    rwa [List.append_assoc] at hrest

/-- Reports of rules that exist leave a row that has a bit for each rule as long as it is. -/
theorem Records.size_matching (h : s.Records n ids)
    (hids : ∀ id ∈ ids, id.toInt < n) (hn : n ≤ BitRow.maxBits) : s.matching.size = n := by
  have hlength := h.length
  simp only [BitRow.size_new hn] at hlength
  refine Nat.le_antisymm (Nat.le_of_not_lt fun hlt => ?_) (Nat.le_of_not_lt fun hlt => ?_)
  · rcases (hlength n).mp hlt with hself | ⟨id, hid, hle⟩
    · omega
    · have hknown := hids id hid
      omega
  · exact Nat.lt_irrefl _ ((hlength _).mpr (.inl hlt))

/-- Whether a number belongs to one of `n` rules. -/
def known (n : Nat) (id : RuleId) : Bool := 0 ≤ id.toInt && id.toInt < n

theorem ruleMatch_unknown {id : RuleId} (h : ¬ known s.numRules id = true) : s.ruleMatch id = s := by
  refine Ignores.ruleMatch_eq (.inl ?_)
  have hzero : (0 : Int32).toInt = 0 := rfl
  simp only [known, Bool.and_eq_true, decide_eq_true_eq] at h
  rw [Int32.lt_iff_toInt_lt]
  omega

/-- Reports of rules that do not exist are passed over. -/
theorem ruleMatchAll_filter (s : ScanState) (ids : List RuleId) :
    s.ruleMatchAll ids = s.ruleMatchAll (ids.filter (known s.numRules)) := by
  induction ids generalizing s with
  | nil => rfl
  | cons id ids ih =>
    by_cases hid : known s.numRules id = true
    · rw [List.filter_cons_of_pos hid, ruleMatchAll_cons, ruleMatchAll_cons, ih, ruleMatch_numRules]
    · rw [List.filter_cons_of_neg hid, ruleMatchAll_cons, ruleMatch_unknown hid, ih]

/-- A new scan records the reports of its rules, whatever else is reported to it. -/
theorem records_ruleMatchAll (n : Int) (index : PatternSource) (ids : List RuleId) :
    ((new n index).ruleMatchAll ids).Records n.toNat (ids.filter (known n.toNat)) := by
  have hsame : new n index = new (n.toNat : Nat) index := by
    simp only [new, Int.toNat_natCast]
  have hcount : (new (n.toNat : Nat) index).numRules = n.toNat := rfl
  have hrange : ∀ id ∈ ids.filter (known n.toNat), 0 ≤ id.toInt ∧ id.toInt < n.toNat := by
    intro id hid
    simpa [known] using (List.mem_filter.mp hid).2
  have hrecords := (records_new n.toNat index).foldl_ruleMatch hrange
  rw [List.nil_append] at hrecords
  rwa [hsame, ruleMatchAll_filter, hcount]

/-- Of the same reports, a new scan of fewer rules records those of its rules. -/
theorem ruleMatchAll_fewer {n n' : Int} (hle : n ≤ n') (index : PatternSource) (ids : List RuleId) :
    ((new n index).ruleMatchAll ids).reported =
        ((new n' index).ruleMatchAll ids).reported.filter (fun id => id.toInt < n) ∧
      ∀ i < n.toNat, ((new n index).ruleMatchAll ids).matching.test i =
        ((new n' index).ruleMatchAll ids).matching.test i := by
  have hsmall := records_ruleMatchAll n index ids
  have hlarge := records_ruleMatchAll n' index ids
  constructor
  · rw [hsmall.reported, hlarge.reported, ← eraseDups_filter, List.filter_filter]
    congr 1
    refine List.filter_congr ?_
    intro id _
    rw [Bool.eq_iff_iff]
    simp only [known, Bool.and_eq_true, decide_eq_true_eq]
    omega
  · intro i hi
    rw [Bool.eq_iff_iff, hsmall.bit, hlarge.bit]
    simp only [List.mem_filter, known, Bool.and_eq_true, decide_eq_true_eq]
    constructor
    · rintro ⟨id, ⟨hmem, hknown⟩, heq⟩
      exact ⟨id, ⟨hmem, by omega⟩, heq⟩
    · rintro ⟨id, ⟨hmem, hknown⟩, heq⟩
      exact ⟨id, ⟨hmem, by omega⟩, heq⟩

end ScanState

end RuleScan
