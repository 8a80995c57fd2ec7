import Mathlib.Data.List.Sort
import RuleScan.Proofs.MatchQueries

/-!
# Offsets in order

The cut of a set of offsets moves to where the next offset belongs, so the members stay in increasing
order wherever earlier insertions left it. An index lists the offsets of a pattern in this order. What
it answers about a pattern is therefore a matter of which offsets it records, and not of how it came
to record them.
-/
namespace RuleScan

/-! ### Sets -/

namespace OffsetSet

variable {n : Nat} {below above : List Nat} {s : OffsetSet}

/-- Once the cut has moved down, what is before it is less than `n`. The first member that stays is
the largest of them. -/
theorem below_seekDown_lt (h : (below.reverse ++ above).Pairwise (· < ·)) :
    ∀ k ∈ (seekDown n below above).below, k < n := by
  induction below generalizing above with
  | nil => simp [seekDown]
  | cons m below ih =>
    rw [List.reverse_cons, List.append_assoc] at h
    rw [seekDown]
    split
    · exact ih h
    · rename_i hm
      have hlargest : ∀ k ∈ below, k < m := by
        intro k hk
        exact (List.pairwise_append.mp h).2.2 k (List.mem_reverse.mpr hk) m (by simp)
      intro k hk
      rcases List.mem_cons.mp hk with rfl | hk
      · omega
      · have hlt := hlargest k hk
        omega

/-- Moving the cut up puts only members before it that are less than `n`. -/
theorem below_seekUp_lt (h : ∀ k ∈ below, k < n) : ∀ k ∈ (seekUp n below above).below, k < n := by
  induction above generalizing below with
  | nil => exact h
  | cons m above ih =>
    rw [seekUp]
    split
    · rename_i hm
      exact ih (List.forall_mem_cons.mpr ⟨hm, h⟩)
    · exact h

theorem le_above_seekUp (h : above.Pairwise (· < ·)) :
    ∀ k ∈ (seekUp n below above).above, n ≤ k := by
  induction above generalizing below with
  | nil => simp [seekUp]
  | cons m above ih =>
    obtain ⟨hsmallest, habove⟩ := List.pairwise_cons.mp h
    rw [seekUp]
    split
    · exact ih habove
    · rename_i hm
      intro k hk
      rcases List.mem_cons.mp hk with rfl | hk
      · omega
      · have hlt := hsmallest k hk
        omega

/-- The cut is where `n` belongs. -/
theorem seek_separates (h : s.toList.Pairwise (· < ·)) :
    (∀ k ∈ (s.seek n).below, k < n) ∧ ∀ k ∈ (s.seek n).above, n ≤ k := by
  have hdown : (seekDown n s.below s.above).toList.Pairwise (· < ·) := by
    rw [toList_seekDown]
    exact h
  exact ⟨below_seekUp_lt (below_seekDown_lt h), le_above_seekUp (List.pairwise_append.mp hdown).2.1⟩

theorem pairwise_insert (h : s.toList.Pairwise (· < ·)) (n : Nat) :
    (s.insert n).toList.Pairwise (· < ·) := by
  obtain ⟨hbelow, habove⟩ := seek_separates (n := n) h
  rw [← toList_seek s n] at h
  rw [insert]
  split
  · exact h
  · rename_i hhead
    obtain ⟨hlow, hhigh, hacross⟩ := List.pairwise_append.mp h
    have habove' : ∀ k ∈ (s.seek n).above, n < k := by
      intro k hk
      obtain ⟨m, above, hcons⟩ := List.exists_cons_of_ne_nil (List.ne_nil_of_mem hk)
      rw [hcons] at hk hhead hhigh habove
      have hm : m ≠ n := fun heq => hhead (congrArg some heq)
      have hle := habove m List.mem_cons_self
      rcases List.mem_cons.mp hk with rfl | hk
      · omega
      · have hlt := (List.pairwise_cons.mp hhigh).1 k hk
        omega
    refine List.pairwise_append.mpr ⟨hlow, List.pairwise_cons.mpr ⟨habove', hhigh⟩, ?_⟩
    intro k hk m hm
    rcases List.mem_cons.mp hm with rfl | hm
    · exact hbelow k (List.mem_reverse.mp hk)
    · exact hacross k hk m hm

/-- A set as an index keeps it for a pattern: it has a member, and its members are offsets. -/
structure Kept (s : OffsetSet) : Prop where
  ascending : s.toList.Pairwise (· < ·)
  nonempty : s.toList ≠ []
  offsets : ∀ k ∈ s.toList, (Int64.ofNat k).toInt = k

theorem Kept.insert {old : Option OffsetSet} (h : ∀ s, old = some s → s.Kept)
    (hn : (Int64.ofNat n).toInt = n) : ((old.getD .empty).insert n).Kept := by
  have hold : (old.getD .empty).toList.Pairwise (· < ·) ∧
      ∀ k ∈ (old.getD .empty).toList, (Int64.ofNat k).toInt = k := by
    cases old with
    | none => simp [empty, toList]
    | some s => exact ⟨(h s rfl).ascending, (h s rfl).offsets⟩
  refine ⟨pairwise_insert hold.1 n, List.ne_nil_of_mem (mem_toList_insert.mpr (.inl rfl)), ?_⟩
  intro k hk
  rcases mem_toList_insert.mp hk with rfl | hk
  · exact hn
  · exact hold.2 k hk

end OffsetSet

/-! ### Indexes -/

/-- Every set of the index is as it should be. -/
def MatchSource.Ordered (x : MatchSource) : Prop := ∀ id s, x.set? id = some s → s.Kept

namespace MatchIndex

variable {x : MatchIndex}

theorem ordered_ofSize (n : Int) : MatchSource.Ordered (some (ofSize n)) := by
  intro id s hs
  rw [set?_ofSize] at hs
  contradiction

theorem ordered_put (h : MatchSource.Ordered (some x)) {p : PatternId} (hlow : 0 ≤ p.toInt)
    (hhigh : p.toInt < x.numPatterns) {s : OffsetSet} (hs : s.Kept) :
    MatchSource.Ordered (some (x.put p s)) := by
  intro id t ht
  rw [set?_put hlow hhigh] at ht
  split at ht
  · exact Option.some.inj ht ▸ hs
  · exact h id t ht

/-- Additions keep the order, whether they are refused or not. -/
theorem ordered_addAll (h : MatchSource.Ordered (some x)) (found : List (PatternId × Int64)) :
    MatchSource.Ordered (some (x.addAll found)) := by
  induction found generalizing x with
  | nil => exact h
  | cons p found ih =>
    rw [addAll_cons]
    refine ih ?_
    rcases add_cases x p with ⟨_, err, herr⟩ | ⟨htakes, hok⟩
    · rw [herr]
      exact h
    · obtain ⟨hlow, hhigh, hoffset⟩ := takes_iff.mp htakes
      have hvalue : (Int64.ofNat p.2.toInt.toNat).toInt = p.2.toInt.toNat := by
        have hlt := p.2.toInt_lt
        exact Int64.toInt_ofNat_of_lt (by omega)
      rw [hok]
      exact ordered_put h hlow hhigh (.insert (h p.1) hvalue)

end MatchIndex

namespace MatchSource

variable {x y : MatchSource} {id : PatternId}

/-- The offsets of a pattern as a list, which is empty for a pattern without a match. -/
def listed (x : MatchSource) (id : PatternId) : List Int64 := (x.offsetsOf? id).getD []

theorem Ordered.offsetsOf?_eq_none_iff (h : x.Ordered) :
    x.offsetsOf? id = none ↔ ∀ k, ¬ x.Records id k := by
  rw [offsetsOf?, Option.map_eq_none_iff]
  constructor
  · rintro hnone k ⟨s, hs, _⟩
    rw [hnone] at hs
    contradiction
  · intro hempty
    cases hs : x.set? id with
    | none => rfl
    | some s =>
      obtain ⟨k, hk⟩ := List.exists_mem_of_ne_nil _ (h id s hs).nonempty
      exact absurd ⟨s, hs, hk⟩ (hempty k)

theorem Ordered.mem_listed (h : x.Ordered) {offset : Int64} :
    offset ∈ x.listed id ↔ ∃ k : Nat, x.Records id k ∧ (k : Int) = offset.toInt := by
  unfold listed offsetsOf? Records
  cases hs : x.set? id with
  | none => simp
  | some s =>
    have hvalue := (h id s hs).offsets
    simp only [Option.map_some, Option.getD_some, Option.some.injEq, exists_eq_left', List.mem_map]
    constructor
    · rintro ⟨k, hk, rfl⟩
      exact ⟨k, hk, (hvalue k hk).symm⟩
    · rintro ⟨k, hk, heq⟩
      exact ⟨k, hk, Int64.toInt_inj.mp ((hvalue k hk).trans heq)⟩

theorem Ordered.pairwise_listed (h : x.Ordered) (id : PatternId) :
    (x.listed id).Pairwise (· < ·) := by
  unfold listed offsetsOf?
  cases hs : x.set? id with
  | none => exact .nil
  | some s =>
    have hkept := h id s hs
    rw [Option.map_some, Option.getD_some, List.pairwise_map]
    refine hkept.ascending.imp_of_mem ?_
    intro a b ha hb hlt
    rw [Int64.lt_iff_toInt_lt, hkept.offsets a ha, hkept.offsets b hb]
    omega

/-- Two indexes give the same answers about a pattern. -/
structure AgreesOn (x y : MatchSource) (id : PatternId) : Prop where
  matched : x.matched id = y.matched id
  matchedAt : ∀ offset, x.matchedAt id offset = y.matchedAt id offset
  matchedIn : ∀ lower upper, x.matchedIn id lower upper = y.matchedIn id lower upper
  offsetsOf? : x.offsetsOf? id = y.offsetsOf? id

/-- The answers about a pattern are a matter of its offsets. -/
theorem Ordered.agreesOn (hx : x.Ordered) (hy : y.Ordered)
    (h : ∀ k, x.Records id k ↔ y.Records id k) : x.AgreesOn y id := by
  refine ⟨?_, ?_, ?_, ?_⟩
  · rw [Bool.eq_iff_iff, matched_iff, matched_iff]
    simp only [h]
  · intro offset
    rw [Bool.eq_iff_iff, matchedAt_iff, matchedAt_iff]
    simp only [h]
  · intro lower upper
    rw [Bool.eq_iff_iff, matchedIn_iff, matchedIn_iff]
    simp only [h]
  · have hlisted : x.listed id = y.listed id := by
      refine (hx.pairwise_listed id).eq_of_mem_iff (hy.pairwise_listed id) ?_
      intro offset
      simp only [hx.mem_listed, hy.mem_listed, h]
    have hnone : x.offsetsOf? id = none ↔ y.offsetsOf? id = none := by
      simp only [hx.offsetsOf?_eq_none_iff, hy.offsetsOf?_eq_none_iff, h]
    unfold listed at hlisted
    cases hxo : x.offsetsOf? id with
    | none => exact (hnone.mp hxo).symm
    | some a =>
      cases hyo : y.offsetsOf? id with
      | none =>
        rw [hnone.mpr hyo] at hxo
        contradiction
      | some b =>
        rw [hxo, hyo] at hlisted
        exact congrArg some hlisted

end MatchSource

end RuleScan
