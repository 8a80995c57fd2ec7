import RuleScan.Match.Index

/-!
# What an index records

Moving the cut of a set of offsets changes none of its members, so an insertion adds the one offset.
An index therefore records, for each pattern, the offsets of the matches that were added and not
refused, and its three queries are about them: whether there is any, whether one is the given offset,
and whether one is within the given bounds.
-/
namespace RuleScan

/-! ### Sets of offsets -/

namespace OffsetSet

theorem toList_seekDown (n : Nat) (below above : List Nat) :
    (seekDown n below above).toList = below.reverse ++ above := by
  induction below generalizing above with
  | nil => rfl
  | cons m below ih =>
    rw [seekDown]
    split
    · rw [ih, List.reverse_cons, List.append_assoc]
      rfl
    · rfl

theorem toList_seekUp (n : Nat) (below above : List Nat) :
    (seekUp n below above).toList = below.reverse ++ above := by
  induction above generalizing below with
  | nil => rfl
  | cons m above ih =>
    rw [seekUp]
    split
    · rw [ih, List.reverse_cons, List.append_assoc]
      rfl
    · rfl

theorem toList_seek (s : OffsetSet) (n : Nat) : (s.seek n).toList = s.toList := by
  rw [seek, toList_seekUp]
  exact toList_seekDown n s.below s.above

theorem mem_toList_insert {s : OffsetSet} {n k : Nat} :
    k ∈ (s.insert n).toList ↔ k = n ∨ k ∈ s.toList := by
  rw [← toList_seek s n, insert]
  split
  · rename_i hhead
    have hmem : n ∈ (s.seek n).toList :=
      List.mem_append_right _ (List.mem_of_mem_head? hhead)
    constructor
    · exact .inr
    · rintro (rfl | hold)
      · exact hmem
      · exact hold
  · simp only [toList, List.mem_append, List.mem_cons]
    rw [or_left_comm]

theorem contains_iff {s : OffsetSet} {n : Nat} : s.contains n = true ↔ n ∈ s.toList := by
  simp [contains, toList]

theorem isEmpty_iff {s : OffsetSet} : s.isEmpty = true ↔ ∀ k, k ∉ s.toList := by
  rw [← List.eq_nil_iff_forall_not_mem]
  simp [isEmpty, toList]

theorem rank_eq (s : OffsetSet) (n : Nat) : s.rank n = s.toList.countP (· ≤ n) := by
  rw [rank, toList, List.countP_append, List.countP_reverse]

/-- The members up to `b` are those up to `a` and those between the two. -/
theorem countP_between {a b : Nat} (h : a ≤ b) (xs : List Nat) :
    xs.countP (· ≤ b) = xs.countP (· ≤ a) + xs.countP (fun k => a < k ∧ k ≤ b) := by
  induction xs with
  | nil => rfl
  | cons x xs ih =>
    simp only [List.countP_cons, ih, decide_eq_true_eq]
    split <;> split <;> split <;> omega

/-- More members are at most `b` than `a` exactly if there is one between the two. -/
theorem rank_lt_rank_iff {s : OffsetSet} {a b : Nat} (h : a ≤ b) :
    s.rank a < s.rank b ↔ ∃ k ∈ s.toList, a < k ∧ k ≤ b := by
  have hsplit := countP_between h s.toList
  rw [rank_eq, rank_eq, hsplit, Nat.lt_add_right_iff_pos, List.countP_pos_iff]
  simp

theorem rank_pos_iff {s : OffsetSet} {b : Nat} : 0 < s.rank b ↔ ∃ k ∈ s.toList, k ≤ b := by
  rw [rank_eq, List.countP_pos_iff]
  simp

end OffsetSet

/-! ### Queries -/

namespace MatchSource

/-- There is an index, and it has the offset among those of the pattern. -/
def Records (x : MatchSource) (id : PatternId) (k : Nat) : Prop :=
  ∃ s, x.set? id = some s ∧ k ∈ s.toList

variable {x : MatchSource} {id : PatternId}

theorem matched_iff : x.matched id = true ↔ ∃ k, x.Records id k := by
  unfold matched Records
  cases x.set? id with
  | none => simp
  | some s => simp [← Bool.not_eq_true, OffsetSet.isEmpty_iff]

theorem matchedAt_iff {offset : Int64} :
    x.matchedAt id offset = true ↔ ∃ k : Nat, x.Records id k ∧ (k : Int) = offset.toInt := by
  unfold matchedAt Records
  have hzero : (0 : Int64).toInt = 0 := rfl
  cases x.set? id with
  | none => simp
  | some s =>
    simp only [Option.some.injEq, exists_eq_left']
    split
    · rename_i hneg
      rw [Int64.lt_iff_toInt_lt, hzero] at hneg
      constructor
      · intro hfalse
        contradiction
      · rintro ⟨k, _, heq⟩
        omega
    · rename_i hneg
      rw [Int64.lt_iff_toInt_lt, hzero] at hneg
      rw [OffsetSet.contains_iff]
      constructor
      · intro hmem
        exact ⟨_, hmem, by omega⟩
      · rintro ⟨k, hmem, heq⟩
        rwa [← heq, Int.toNat_natCast]

theorem matchedIn_iff {lower upper : Int64} :
    x.matchedIn id lower upper = true ↔
      ∃ k : Nat, x.Records id k ∧ lower.toInt ≤ k ∧ (k : Int) ≤ upper.toInt := by
  unfold matchedIn Records
  have hzero : (0 : Int64).toInt = 0 := rfl
  cases x.set? id with
  | none => simp
  | some s =>
    simp only [Option.some.injEq, exists_eq_left', Int64.lt_iff_toInt_lt, hzero]
    split
    · rename_i hempty
      constructor
      · intro hfalse
        contradiction
      · rintro ⟨k, _, hlow, hhigh⟩
        omega
    · rename_i hbounds
      rw [decide_eq_true_iff]
      by_cases hlower : 0 < lower.toInt
      · -- The end before `lower` is an offset, since `lower` is positive.
        have hone : (1 : Int64).toInt = 1 := rfl
        have hrange := lower.le_toInt
        have hrange' := lower.toInt_lt
        have hpred : (lower - 1).toInt = lower.toInt - 1 := by
          rw [Int64.toInt_sub, hone, Int.bmod_eq_of_le (by omega) (by omega)]
        rw [if_neg (c := lower.toInt < 0) (by omega), if_pos hlower, hpred,
          OffsetSet.rank_lt_rank_iff (by omega)]
        constructor
        · rintro ⟨k, hmem, hlow, hhigh⟩
          exact ⟨k, hmem, by omega, by omega⟩
        · rintro ⟨k, hmem, hlow, hhigh⟩
          exact ⟨k, hmem, by omega, by omega⟩
      · -- A negative lower bound is as good as zero.
        have hclamped : ¬ 0 < (if lower.toInt < 0 then 0 else lower).toInt := by
          split
          · rw [hzero]
            omega
          · exact hlower
        rw [if_neg hclamped, OffsetSet.rank_pos_iff]
        constructor
        · rintro ⟨k, hmem, hhigh⟩
          exact ⟨k, hmem, by omega, by omega⟩
        · rintro ⟨k, hmem, hlow, hhigh⟩
          exact ⟨k, hmem, by omega⟩

end MatchSource

/-! ### Adding matches -/

namespace MatchIndex

variable {x : MatchIndex} {id : PatternId}

theorem set?_ofSize (n : Int) (id : PatternId) : MatchSource.set? (some (ofSize n)) id = none := by
  simp only [MatchSource.set?, ofSize, Array.getD_eq_getD_getElem?, Array.getElem?_replicate]
  split
  · rfl
  · split <;> rfl

theorem not_records_ofSize (n : Int) (id : PatternId) (k : Nat) :
    ¬ MatchSource.Records (some (ofSize n)) id k := by
  rintro ⟨s, hs, _⟩
  rw [set?_ofSize] at hs
  contradiction

/-- Whether an index of `n` patterns takes a match. -/
def takes (n : Nat) (found : PatternId × Int64) : Bool :=
  0 ≤ found.1.toInt && found.1.toInt < n && 0 ≤ found.2.toInt

theorem takes_iff {n : Nat} {found : PatternId × Int64} : takes n found = true ↔
    0 ≤ found.1.toInt ∧ found.1.toInt < n ∧ 0 ≤ found.2.toInt := by
  simp [takes, and_assoc]

/-- The index with another set for one of its patterns. -/
def put (x : MatchIndex) (id : PatternId) (s : OffsetSet) : MatchIndex :=
  ⟨x.offsets.setIfInBounds id.toInt.toNat (some s)⟩

theorem put_numPatterns (x : MatchIndex) (id : PatternId) (s : OffsetSet) :
    (x.put id s).numPatterns = x.numPatterns := Array.size_setIfInBounds

/-- The set of a pattern that exists. -/
theorem set?_of_lt (hlow : 0 ≤ id.toInt) (hhigh : id.toInt < x.numPatterns) :
    MatchSource.set? (some x) id = x.offsets.getD id.toInt.toNat none := by
  have hzero : (0 : Int32).toInt = 0 := rfl
  rw [MatchSource.set?, if_neg]
  rw [Int32.lt_iff_toInt_lt]
  omega

theorem set?_put {p : PatternId} (hlow : 0 ≤ p.toInt) (hhigh : p.toInt < x.numPatterns)
    (s : OffsetSet) (id : PatternId) :
    MatchSource.set? (some (x.put p s)) id =
      if id = p then some s else MatchSource.set? (some x) id := by
  have hzero : (0 : Int32).toInt = 0 := rfl
  have hlt : p.toInt.toNat < x.offsets.size := by
    unfold numPatterns at hhigh
    omega
  by_cases hid : id = p
  · rw [if_pos hid, hid, set?_of_lt hlow (by rwa [put_numPatterns]), put,
      Array.getD_eq_getD_getElem?, Array.getElem?_setIfInBounds, if_pos rfl, if_pos hlt]
    rfl
  · simp only [if_neg hid, MatchSource.set?, put_numPatterns]
    split
    · rfl
    · rename_i hrange
      rw [Int32.lt_iff_toInt_lt] at hrange
      have hne : p.toInt.toNat ≠ id.toInt.toNat := fun heq => hid (Int32.toInt_inj.mp (by omega))
      rw [put, Array.getD_eq_getD_getElem?, Array.getElem?_setIfInBounds, if_neg hne,
        Array.getD_eq_getD_getElem?]

/-- What an addition does: it is refused and changes nothing, or it changes the set of its pattern. -/
theorem add_cases (x : MatchIndex) (found : PatternId × Int64) :
    (¬ takes x.numPatterns found = true ∧ ∃ err, x.add found.1 found.2 = (x, some err)) ∨
    (takes x.numPatterns found = true ∧ x.add found.1 found.2 = (x.put found.1
      (((MatchSource.set? (some x) found.1).getD .empty).insert found.2.toInt.toNat), none)) := by
  have hzero : (0 : Int32).toInt = 0 := rfl
  have hzero' : (0 : Int64).toInt = 0 := rfl
  simp only [takes_iff, add, Int32.lt_iff_toInt_lt, Int64.lt_iff_toInt_lt, hzero, hzero']
  split
  · exact .inl ⟨by omega, _, rfl⟩
  · split
    · exact .inl ⟨by omega, _, rfl⟩
    · rw [set?_of_lt (by omega) (by omega)]
      exact .inr ⟨by omega, rfl⟩

/-- An offset that is put into the set of a pattern is recorded beside those before. -/
theorem records_put {p : PatternId} (hlow : 0 ≤ p.toInt) (hhigh : p.toInt < x.numPatterns)
    (n k : Nat) :
    MatchSource.Records (some (x.put p (((MatchSource.set? (some x) p).getD .empty).insert n))) id k ↔
      id = p ∧ k = n ∨ MatchSource.Records (some x) id k := by
  unfold MatchSource.Records
  rw [set?_put hlow hhigh]
  by_cases hid : id = p
  · rw [if_pos hid, hid]
    simp only [Option.some.injEq, exists_eq_left', OffsetSet.mem_toList_insert, true_and]
    cases MatchSource.set? (some x) p with
    | none => simp [OffsetSet.empty, OffsetSet.toList]
    | some s => simp
  · rw [if_neg hid]
    simp [hid]

theorem addAll_cons (x : MatchIndex) (p : PatternId × Int64) (found : List (PatternId × Int64)) :
    x.addAll (p :: found) = (x.add p.1 p.2).1.addAll found := rfl

/-- Of matches that are added in turn, the index records those that it takes. -/
theorem records_addAll {found : List (PatternId × Int64)} {k : Nat} :
    MatchSource.Records (some (x.addAll found)) id k ↔ MatchSource.Records (some x) id k ∨
      ∃ offset, (id, offset) ∈ found.filter (takes x.numPatterns) ∧ k = offset.toInt.toNat := by
  induction found generalizing x with
  | nil => simp [addAll]
  | cons p found ih =>
    rw [addAll_cons]
    rcases add_cases x p with ⟨hrefused, err, herr⟩ | ⟨htakes, hok⟩
    · rw [herr, List.filter_cons_of_neg hrefused]
      exact ih
    · obtain ⟨hlow, hhigh, _⟩ := takes_iff.mp htakes
      rw [hok, List.filter_cons_of_pos htakes, ih, records_put hlow hhigh, put_numPatterns, or_assoc,
        or_left_comm]
      simp only [List.mem_cons, Prod.ext_iff, or_and_right, exists_or, and_assoc, exists_and_left,
        exists_eq_left]

end MatchIndex

end RuleScan
