import RuleScan.Condition.Text

/-!
# Reading conditions back

The text of a condition can be read back. What a text begins with tells which node it is of: a word of a
fixed table, of which no word begins another, or else a number. Where the node ends is settled by its
closing parenthesis or by its last child; a number ends, and a pattern has no offset, because what can
stand after a condition begins neither with a digit nor like an offset. Two conditions with known
operators therefore have the same text only if they are the same, up to the names of foreign nodes, which
are not written.
-/
namespace RuleScan

/-! ### Words -/

/-- Looks up the word that a text begins with, and gives what it stands for and the text after it. -/
def readWord {α : Type} (words : List (List Char × α)) (text : List Char) :
    Option (α × List Char) :=
  words.findSome? fun p => if p.1 <+: text then some (p.2, text.drop p.1.length) else none

/-- Neither of two words begins with the other. -/
def Apart (v w : List Char) : Prop := ¬ v <+: w ∧ ¬ w <+: v

instance (v w : List Char) : Decidable (Apart v w) := inferInstanceAs (Decidable (_ ∧ _))

theorem Apart.not_prefix_append {v w : List Char} (h : Apart v w) (rest : List Char) :
    ¬ v <+: w ++ rest := by
  intro hbegins
  rcases List.prefix_or_prefix_of_prefix hbegins (List.prefix_append w rest) with hv | hw
  · exact h.1 hv
  · exact h.2 hw

theorem readWord_eq_none {α : Type} {words : List (List Char × α)} {text : List Char}
    (h : ∀ p ∈ words, ¬ p.1 <+: text) : readWord words text = none :=
  List.findSome?_eq_none_iff.mpr fun p hp => if_neg (h p hp)

/-- A word of a table is found, if the words of the table are apart. -/
theorem readWord_append {α : Type} {words : List (List Char × α)}
    (hapart : words.Pairwise fun p q => Apart p.1 q.1) {w : List Char} {a : α}
    (hmem : (w, a) ∈ words) (rest : List Char) : readWord words (w ++ rest) = some (a, rest) := by
  induction words with
  | nil => contradiction
  | cons p words ih =>
    obtain ⟨hfirst, hothers⟩ := List.pairwise_cons.mp hapart
    rcases List.mem_cons.mp hmem with rfl | hrest
    · simp [readWord]
    · have hnot := (hfirst _ hrest).not_prefix_append rest
      have hskip : readWord (p :: words) (w ++ rest) = readWord words (w ++ rest) := by
        simp only [readWord, List.findSome?_cons, if_neg hnot]
      rw [hskip]
      exact ih hothers hrest

/-! ### Numbers -/

/-- The digits that a text begins with as a number, and the text after them. -/
def readDigits (text : List Char) : Nat × List Char :=
  (Nat.ofDigitChars 10 (text.takeWhile Char.isDigit) 0, text.dropWhile Char.isDigit)

/-- The number with or without a sign that a text begins with, and the text after it. -/
def readNumber (text : List Char) : Int × List Char :=
  if text.head? = some '-' then (-((readDigits text.tail).1 : Int), (readDigits text.tail).2)
  else ((readDigits text).1, (readDigits text).2)

/-- The text does not begin with a digit. -/
def NoDigit (text : List Char) : Prop := ∀ c ∈ text.head?, c.isDigit = false

theorem readDigits_repr (n : Nat) {rest : List Char} (h : NoDigit rest) :
    readDigits (n.repr.toList ++ rest) = (n, rest) := by
  have hdigits : ∀ c ∈ Nat.toDigits 10 n, c.isDigit = true :=
    fun c hc => Nat.isDigit_of_mem_toDigits (by decide) (by decide) hc
  have hend : rest.takeWhile Char.isDigit = [] ∧ rest.dropWhile Char.isDigit = rest := by
    cases rest with
    | nil => exact ⟨rfl, rfl⟩
    | cons c rest =>
      have hc := h c rfl
      exact ⟨List.takeWhile_cons_of_neg (by simp [hc]), List.dropWhile_cons_of_neg (by simp [hc])⟩
  rw [Nat.repr_eq_ofList_toDigits, String.toList_ofList, readDigits,
    List.takeWhile_append_of_pos hdigits, List.dropWhile_append_of_pos hdigits, hend.1, hend.2,
    List.append_nil, Nat.ofDigitChars_ten_toDigits]

theorem repr_begins (n : Nat) : ∃ c cs, n.repr.toList = c :: cs ∧ c.isDigit = true := by
  rw [Nat.repr_eq_ofList_toDigits, String.toList_ofList]
  obtain ⟨c, cs, hdigits⟩ := List.exists_cons_of_ne_nil (Nat.toDigits_ne_nil (n := n) (b := 10))
  refine ⟨c, cs, hdigits, Nat.isDigit_of_mem_toDigits (n := n) (b := 10) (by decide) (by decide) ?_⟩
  rw [hdigits]
  exact List.mem_cons_self

/-- The text of a number is that of a natural number, or begins with a sign and goes on with one. -/
theorem toList_toString (n : Int) :
    (0 ≤ n ∧ (toString n).toList = n.toNat.repr.toList) ∨
      (n < 0 ∧ (toString n).toList = '-' :: (-n).toNat.repr.toList) := by
  rw [Int.toString_eq_repr, Int.repr_eq_if]
  by_cases hn : 0 ≤ n
  · rw [if_pos hn]
    exact .inl ⟨hn, rfl⟩
  · rw [if_neg hn, String.toList_append]
    exact .inr ⟨Int.not_le.mp hn, rfl⟩

theorem readNumber_toString (n : Int) {rest : List Char} (h : NoDigit rest) :
    readNumber ((toString n).toList ++ rest) = (n, rest) := by
  rcases toList_toString n with ⟨hn, htext⟩ | ⟨hn, htext⟩
  · obtain ⟨c, cs, hrepr, hdigit⟩ := repr_begins n.toNat
    have hsign : (n.toNat.repr.toList ++ rest).head? ≠ some '-' := by
      rw [hrepr]
      rintro hc
      obtain rfl : c = '-' := Option.some.inj hc
      contradiction
    rw [htext, readNumber, if_neg hsign, readDigits_repr _ h]
    simp only [Int.toNat_of_nonneg hn]
  · rw [htext, List.cons_append, readNumber, List.head?_cons, if_pos rfl, List.tail_cons,
      readDigits_repr _ h]
    have hneg : -((-n).toNat : Int) = n := by omega
    rw [hneg]

/-- What the text of a number begins with. -/
theorem toString_begins (n : Int) :
    ∃ c cs, (toString n).toList = c :: cs ∧ (c.isDigit = true ∨ c = '-') := by
  rcases toList_toString n with ⟨_, htext⟩ | ⟨_, htext⟩
  · obtain ⟨c, cs, hrepr, hdigit⟩ := repr_begins n.toNat
    exact ⟨c, cs, htext.trans hrepr, .inl hdigit⟩
  · exact ⟨_, _, htext, .inr rfl⟩

/-! ### The reader -/

/-- What the first word of a text says about its node. -/
inductive Leading where
  | whole (c : Condition)
  | not
  | pattern
  | binary
deriving DecidableEq, Repr

/-- What is written after the number of a pattern, if it is not all. -/
inductive Locator where
  | offset
  | range
deriving DecidableEq, Repr

def leadingWords : List (List Char × Leading) :=
  [("<nil>".toList, .whole .missing), ("<unknown>".toList, .whole (.foreign "")),
   ("true".toList, .whole (.bool true)), ("false".toList, .whole (.bool false)),
   ("not ".toList, .not), ("$p".toList, .pattern), ("(".toList, .binary)]

def locatorWords : List (List Char × Locator) := [(" at ".toList, .offset), (" in (".toList, .range)]

/-- A binary node without its operands. -/
inductive Joint where
  | and
  | or
  | compare (op : CompareOp)
  | arith (op : ArithOp)
deriving DecidableEq, Repr

namespace Joint

def node : Joint → Condition → Condition → Condition
  | and => .and
  | or => .or
  | compare op => .compare op
  | arith op => .arith op

def symbol : Joint → String
  | and => "and"
  | or => "or"
  | compare op => op.symbol
  | arith op => op.symbol

/-- The binary nodes with known operators. -/
def all : List Joint :=
  [and, or, compare .eq, compare .ne, compare .lt, compare .le, compare .gt, compare .ge,
   arith .add, arith .sub, arith .mul, arith .div, arith .rem]

theorem compare_mem {op : CompareOp} (h : ∀ n, op ≠ .unknown n) : compare op ∈ all := by
  cases op with
  | unknown n => exact absurd rfl (h n)
  | _ => decide

theorem arith_mem {op : ArithOp} (h : ∀ n, op ≠ .unknown n) : arith op ∈ all := by
  cases op with
  | unknown n => exact absurd rfl (h n)
  | _ => decide

/-- How the operands are set apart. -/
def word (j : Joint) : List Char := ' ' :: (j.symbol.toList ++ [' '])

def words : List (List Char × Joint) := all.map fun j => (j.word, j)

end Joint

/-- Reads the condition that a text begins with, of bounded depth. -/
def Condition.read : Nat → List Char → Option (Condition × List Char)
  | 0, _ => none
  | depth + 1, text =>
    match readWord leadingWords text with
    | none =>
      let (n, text) := readNumber text
      some (.int (Int64.ofInt n), text)
    | some (.whole c, text) => some (c, text)
    | some (.not, text) => do
      let (x, text) ← read depth text
      return (.not x, text)
    | some (.pattern, text) =>
      let (n, text) := readNumber text
      match readWord locatorWords text with
      | none => some (.pattern (Int32.ofInt n), text)
      | some (.offset, text) => do
        let (off, text) ← read depth text
        return (.patternAt (Int32.ofInt n) off, text)
      | some (.range, text) => do
        let (lo, text) ← read depth text
        let (_, text) ← readWord [("..".toList, ())] text
        let (hi, text) ← read depth text
        let (_, text) ← readWord [(")".toList, ())] text
        return (.patternIn (Int32.ofInt n) lo hi, text)
    | some (.binary, text) => do
      let (x, text) ← read depth text
      let (j, text) ← readWord Joint.words text
      let (y, text) ← read depth text
      let (_, text) ← readWord [(")".toList, ())] text
      return (j.node x y, text)

theorem leadingWords_apart : leadingWords.Pairwise fun p q => Apart p.1 q.1 := by decide

theorem jointWords_apart : Joint.words.Pairwise fun p q => Apart p.1 q.1 := by decide

theorem locatorWords_apart : locatorWords.Pairwise fun p q => Apart p.1 q.1 := by decide

/-- What can stand after a condition. -/
def followers : List (List Char) := ["..".toList, ")".toList] ++ Joint.words.map (·.1)

/-- The text is the end of a whole, or goes on after a condition. -/
def Follows (text : List Char) : Prop := NoDigit text ∧ ∀ p ∈ locatorWords, ¬ p.1 <+: text

theorem follows_nil : Follows [] := ⟨by simp [NoDigit], by decide⟩

theorem noDigit_append {w : List Char} (h : w.head?.map Char.isDigit = some false)
    (rest : List Char) : NoDigit (w ++ rest) := by
  obtain ⟨c, hc, hnot⟩ := Option.map_eq_some_iff.mp h
  intro d hd
  rw [List.head?_append, hc] at hd
  obtain rfl : c = d := Option.some.inj hd
  exact hnot

theorem follows_append {w : List Char} (hw : w ∈ followers) (rest : List Char) :
    Follows (w ++ rest) := by
  have hapart : ∀ w ∈ followers, ∀ p ∈ locatorWords, Apart p.1 w := by decide
  have hdigit : ∀ w ∈ followers, w.head?.map Char.isDigit = some false := by decide
  exact ⟨noDigit_append (hdigit w hw) rest,
    fun p hp => (hapart w hw p hp).not_prefix_append rest⟩

theorem Follows.readWord_locator {text : List Char} (h : Follows text) :
    readWord locatorWords text = none := readWord_eq_none h.2

/-- A number has none of the words of the table in front. -/
theorem readWord_leading_toString (n : Int) (rest : List Char) :
    readWord leadingWords ((toString n).toList ++ rest) = none := by
  have hfirst : ∀ p ∈ leadingWords, ∃ d ds, p.1 = d :: ds ∧ d.isDigit = false ∧ d ≠ '-' := by
    simp [leadingWords]
  obtain ⟨c, cs, htext, hc⟩ := toString_begins n
  refine readWord_eq_none fun p hp hbegins => ?_
  obtain ⟨d, ds, hp, hdigit, hsign⟩ := hfirst p hp
  rw [htext, hp, List.cons_append, List.cons_prefix_cons] at hbegins
  obtain ⟨rfl, _⟩ := hbegins
  rcases hc with hc | hc
  · rw [hc] at hdigit
    contradiction
  · exact hsign hc

/-! ### The text of a condition is read back -/

namespace Condition

/-- All comparisons and all arithmetic have an operator of the language. -/
def KnownOperators : Condition → Prop
  | .missing | .foreign _ | .bool _ | .int _ | .pattern _ => True
  | .patternAt _ off => off.KnownOperators
  | .patternIn _ lo hi => lo.KnownOperators ∧ hi.KnownOperators
  | .not x => x.KnownOperators
  | .and x y | .or x y => x.KnownOperators ∧ y.KnownOperators
  | .compare op x y => (∀ n, op ≠ .unknown n) ∧ x.KnownOperators ∧ y.KnownOperators
  | .arith op x y => (∀ n, op ≠ .unknown n) ∧ x.KnownOperators ∧ y.KnownOperators

/-- The condition with all foreign nodes made one. -/
def anonymous : Condition → Condition
  | .foreign _ => .foreign ""
  | .patternAt p off => .patternAt p off.anonymous
  | .patternIn p lo hi => .patternIn p lo.anonymous hi.anonymous
  | .not x => .not x.anonymous
  | .and x y => .and x.anonymous y.anonymous
  | .or x y => .or x.anonymous y.anonymous
  | .compare op x y => .compare op x.anonymous y.anonymous
  | .arith op x y => .arith op x.anonymous y.anonymous
  | c => c

theorem text_anonymous (c : Condition) : c.anonymous.text = c.text := by
  induction c with
  | missing | foreign | bool | int | pattern => rfl
  | patternAt p off ih => simp only [anonymous, text, ih]
  | patternIn p lo hi ihlo ihhi => simp only [anonymous, text, ihlo, ihhi]
  | not x ih => simp only [anonymous, text, ih]
  | and x y ihx ihy | or x y ihx ihy | compare op x y ihx ihy | arith op x y ihx ihy =>
    simp only [anonymous, text, ihx, ihy]

/-- In front of anything that can follow it, the text of the condition is read back. -/
def ReadBack (depth : Nat) (c : Condition) : Prop :=
  ∀ rest, Follows rest → read depth (c.text.toList ++ rest) = some (c.anonymous, rest)

theorem read_whole {w : List Char} {c : Condition} (hmem : (w, .whole c) ∈ leadingWords)
    (depth : Nat) (rest : List Char) : read (depth + 1) (w ++ rest) = some (c, rest) := by
  simp only [read, readWord_append leadingWords_apart hmem]

theorem readBack_int (v : Int64) (depth : Nat) : ReadBack (depth + 1) (.int v) := by
  intro rest hrest
  simp only [text, read, readWord_leading_toString, readNumber_toString _ hrest.1, Int64.ofInt_toInt]
  rfl

theorem readBack_not {x : Condition} {depth : Nat} (hx : ReadBack depth x) :
    ReadBack (depth + 1) (.not x) := by
  intro rest hrest
  simp only [text, String.toList_append, List.append_assoc, read,
    readWord_append leadingWords_apart (w := "not ".toList) (a := .not) (by decide), hx rest hrest]
  rfl

theorem readBack_pattern (p : PatternId) (depth : Nat) : ReadBack (depth + 1) (.pattern p) := by
  intro rest hrest
  simp only [text, patternText, String.toList_append, List.append_assoc, read,
    readWord_append leadingWords_apart (w := "$p".toList) (a := .pattern) (by decide),
    readNumber_toString _ hrest.1, hrest.readWord_locator, Int32.ofInt_toInt]
  rfl

theorem readBack_patternAt (p : PatternId) {off : Condition} {depth : Nat}
    (hoff : ReadBack depth off) : ReadBack (depth + 1) (.patternAt p off) := by
  intro rest hrest
  have hdigit (rest : List Char) : NoDigit (" at ".toList ++ rest) := noDigit_append (by decide) rest
  simp only [text, patternText, String.toList_append, List.append_assoc, read,
    readWord_append leadingWords_apart (w := "$p".toList) (a := .pattern) (by decide),
    readNumber_toString _ (hdigit _), hoff rest hrest, Int32.ofInt_toInt,
    readWord_append locatorWords_apart (w := " at ".toList) (a := .offset) (by decide)]
  rfl

theorem readBack_patternIn (p : PatternId) {lo hi : Condition} {depth : Nat}
    (hlo : ReadBack depth lo) (hhi : ReadBack depth hi) :
    ReadBack (depth + 1) (.patternIn p lo hi) := by
  intro rest hrest
  have hdigit (rest : List Char) : NoDigit (" in (".toList ++ rest) :=
    noDigit_append (by decide) rest
  have hdots (rest : List Char) := hlo _ (follows_append (w := "..".toList) (by decide) rest)
  have hclose := hhi _ (follows_append (w := ")".toList) (by decide) rest)
  simp only [text, patternText, String.toList_append, List.append_assoc, read,
    readWord_append leadingWords_apart (w := "$p".toList) (a := .pattern) (by decide),
    readNumber_toString _ (hdigit _), hdots, hclose, Int32.ofInt_toInt,
    readWord_append locatorWords_apart (w := " in (".toList) (a := .range) (by decide),
    readWord_append (List.pairwise_singleton _ _) List.mem_cons_self, Option.bind_eq_bind,
    Option.bind_some]
  rfl

theorem readBack_binary {j : Joint} (hj : j ∈ Joint.all) {x y : Condition} {depth : Nat}
    (hx : ReadBack depth x) (hy : ReadBack depth y) : ReadBack (depth + 1) (j.node x y) := by
  intro rest _
  have hmem : (j.word, j) ∈ Joint.words := List.mem_map_of_mem hj
  have hfollows : j.word ∈ followers :=
    List.mem_append_right _ (List.mem_map_of_mem (f := Prod.fst) hmem)
  have hjoint (rest : List Char) := hx _ (follows_append hfollows rest)
  have hclose := hy _ (follows_append (w := ")".toList) (by decide) rest)
  have htext : (j.node x y).text.toList ++ rest =
      "(".toList ++ (x.text.toList ++ (j.word ++ (y.text.toList ++ (")".toList ++ rest)))) := by
    cases j <;> simp [Joint.node, text, binaryText, Joint.word, Joint.symbol]
  have hnode : (j.node x y).anonymous = j.node x.anonymous y.anonymous := by cases j <;> rfl
  rw [htext, hnode, read, readWord_append leadingWords_apart (a := .binary) (by decide)]
  simp only [hjoint, hclose, readWord_append jointWords_apart hmem,
    readWord_append (List.pairwise_singleton _ _) List.mem_cons_self, Option.bind_eq_bind,
    Option.bind_some]
  rfl

/-- How many nodes stand above the lowest one. -/
def height : Condition → Nat
  | .missing | .foreign _ | .bool _ | .int _ | .pattern _ => 0
  | .patternAt _ x | .not x => x.height + 1
  | .patternIn _ x y | .and x y | .or x y | .compare _ x y | .arith _ x y =>
    max x.height y.height + 1

/-- The text of a condition with known operators is read back. -/
theorem KnownOperators.readBack {c : Condition} (h : c.KnownOperators) {depth : Nat}
    (hdepth : c.height ≤ depth) : ReadBack (depth + 1) c := by
  induction c generalizing depth with
  | missing => exact fun rest _ => read_whole (w := "<nil>".toList) (by decide) depth rest
  | foreign name =>
    exact fun rest _ =>
      read_whole (w := "<unknown>".toList) (c := .foreign "") (by decide) depth rest
  | bool b =>
    cases b with
    | true => exact fun rest _ => read_whole (w := "true".toList) (by decide) depth rest
    | false => exact fun rest _ => read_whole (w := "false".toList) (by decide) depth rest
  | int v => exact readBack_int v depth
  | pattern p => exact readBack_pattern p depth
  | patternAt p off ih =>
    obtain ⟨k, rfl⟩ := Nat.exists_eq_add_of_lt hdepth
    exact readBack_patternAt p (ih h (Nat.le_add_right _ k))
  | patternIn p lo hi ihlo ihhi =>
    obtain ⟨k, rfl⟩ := Nat.exists_eq_add_of_lt hdepth
    exact readBack_patternIn p (ihlo h.1 (by omega)) (ihhi h.2 (by omega))
  | not x ih =>
    obtain ⟨k, rfl⟩ := Nat.exists_eq_add_of_lt hdepth
    exact readBack_not (ih h (Nat.le_add_right _ k))
  | and x y ihx ihy =>
    obtain ⟨k, rfl⟩ := Nat.exists_eq_add_of_lt hdepth
    exact readBack_binary (j := .and) (by decide) (ihx h.1 (by omega)) (ihy h.2 (by omega))
  | or x y ihx ihy =>
    obtain ⟨k, rfl⟩ := Nat.exists_eq_add_of_lt hdepth
    exact readBack_binary (j := .or) (by decide) (ihx h.1 (by omega)) (ihy h.2 (by omega))
  | compare op x y ihx ihy =>
    obtain ⟨k, rfl⟩ := Nat.exists_eq_add_of_lt hdepth
    obtain ⟨hop, hx, hy⟩ := h
    exact readBack_binary (Joint.compare_mem hop) (ihx hx (by omega)) (ihy hy (by omega))
  | arith op x y ihx ihy =>
    obtain ⟨k, rfl⟩ := Nat.exists_eq_add_of_lt hdepth
    obtain ⟨hop, hx, hy⟩ := h
    exact readBack_binary (Joint.arith_mem hop) (ihx hx (by omega)) (ihy hy (by omega))

/-- Conditions whose operators are all known have the same text exactly if they are the same, foreign
nodes counted as one. -/
theorem text_unambiguous {a b : Condition} (ha : a.KnownOperators) (hb : b.KnownOperators) :
    a.text = b.text ↔ a.anonymous = b.anonymous := by
  constructor
  · intro htext
    have hreada := ha.readBack (Nat.le_max_left a.height b.height) [] follows_nil
    have hreadb := hb.readBack (Nat.le_max_right a.height b.height) [] follows_nil
    rw [← htext, hreada] at hreadb
    exact congrArg Prod.fst (Option.some.inj hreadb)
  · intro hsame
    rw [← text_anonymous a, hsame, text_anonymous]

/-- Whether a negation stands inside or outside of a comparison can be seen. -/
theorem text_of_negations :
    ∃ a b : Condition, a.KnownOperators ∧ b.KnownOperators ∧ a.text ≠ b.text ∧
      a = .not (.compare .eq (.pattern 1) (.foreign "x")) ∧
      b = .compare .eq (.not (.pattern 1)) (.foreign "x") := by
  have hop : ∀ n, CompareOp.eq ≠ .unknown n := by simp
  have ha : (Condition.not (.compare .eq (.pattern 1) (.foreign "x"))).KnownOperators :=
    ⟨hop, trivial, trivial⟩
  have hb : (Condition.compare .eq (.not (.pattern 1)) (.foreign "x")).KnownOperators :=
    ⟨hop, trivial, trivial⟩
  exact ⟨_, _, ha, hb, fun htext => absurd ((text_unambiguous ha hb).mp htext) (by decide), rfl, rfl⟩

end Condition

end RuleScan
