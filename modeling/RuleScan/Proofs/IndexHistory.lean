import RuleScan.Proofs.OffsetOrder

/-!
# An index as a family of sets

However an index is filled, it keeps for each pattern the set of the offsets at which the pattern was
added and not refused. All queries are about the members of this set: a range query, which compares two
ranks, asks for a member within its bounds.
-/
namespace RuleScan

/-- How an index comes about: it is made for a number of patterns, and matches are added in turn. -/
structure IndexHistory where
  numPatterns : Int
  added : List (PatternId × Int64)

namespace IndexHistory

def index (h : IndexHistory) : MatchIndex := (MatchIndex.ofSize h.numPatterns).addAll h.added

/-- The index as queries are asked of it. -/
def source (h : IndexHistory) : MatchSource := some h.index

/-- The matches that are not refused: those of patterns that exist, at offsets that are not
negative. -/
def recorded (h : IndexHistory) : List (PatternId × Int64) :=
  h.added.filter fun found =>
    0 ≤ found.1.toInt && found.1.toInt < h.numPatterns && 0 ≤ found.2.toInt

theorem records_source {h : IndexHistory} {id : PatternId} {k : Nat} :
    h.source.Records id k ↔ ∃ offset, (id, offset) ∈ h.recorded ∧ (k : Int) = offset.toInt := by
  have hsize : (MatchIndex.ofSize h.numPatterns).numPatterns = h.numPatterns.toNat :=
    Array.size_replicate
  rw [source, index, MatchIndex.records_addAll, hsize]
  simp only [MatchIndex.not_records_ofSize, false_or, recorded, List.mem_filter,
    MatchIndex.takes_iff, Bool.and_eq_true, decide_eq_true_eq]
  constructor
  · rintro ⟨offset, ⟨hmem, hlow, hhigh, hoffset⟩, rfl⟩
    exact ⟨offset, ⟨hmem, ⟨hlow, by omega⟩, hoffset⟩, by omega⟩
  · rintro ⟨offset, ⟨hmem, ⟨hlow, hhigh⟩, hoffset⟩, heq⟩
    exact ⟨offset, ⟨hmem, hlow, by omega, hoffset⟩, by omega⟩

variable (h : IndexHistory)

/-- The history with one more addition, which may be refused. -/
def attempt (id : PatternId) (offset : Int64) : IndexHistory :=
  ⟨h.numPatterns, h.added ++ [(id, offset)]⟩

theorem ordered_source : h.source.Ordered :=
  MatchIndex.ordered_addAll (MatchIndex.ordered_ofSize _) _

theorem numPatterns_addAll (x : MatchIndex) (found : List (PatternId × Int64)) :
    (x.addAll found).numPatterns = x.numPatterns := by
  induction found generalizing x with
  | nil => rfl
  | cons p found ih =>
    rw [MatchIndex.addAll_cons, ih]
    rcases MatchIndex.add_cases x p with ⟨_, err, herr⟩ | ⟨_, hok⟩
    · rw [herr]
    · rw [hok]
      exact MatchIndex.put_numPatterns _ _ _

theorem numPatterns_index : h.index.numPatterns = h.numPatterns.toNat := by
  rw [index, numPatterns_addAll]
  exact Array.size_replicate

theorem index_attempt (id : PatternId) (offset : Int64) :
    (h.attempt id offset).index = (h.index.add id offset).1 := by
  unfold attempt index MatchIndex.addAll
  rw [List.foldl_append]
  rfl

theorem recorded_attempt (id : PatternId) (offset : Int64) :
    (h.attempt id offset).recorded =
      if (0 ≤ id.toInt ∧ id.toInt < h.numPatterns) ∧ 0 ≤ offset.toInt then
        h.recorded ++ [(id, offset)]
      else h.recorded := by
  unfold recorded
  rw [attempt, List.filter_append, List.filter_singleton]
  split
  · rename_i htaken
    simp only [htaken, decide_true, Bool.and_true, cond_true]
  · rename_i hrefused
    have hfalse : (0 ≤ id.toInt && id.toInt < h.numPatterns && 0 ≤ offset.toInt) = false := by
      simpa only [← Bool.not_eq_true, Bool.and_eq_true, decide_eq_true_eq] using hrefused
    rw [hfalse, cond_false, List.append_nil]

/-- What one more addition does. A pattern that does not exist is reported before a negative offset. -/
theorem attempt_cases (id : PatternId) (offset : Int64) :
    (¬ (0 ≤ id.toInt ∧ id.toInt < h.numPatterns) ∧
      h.index.add id offset = (h.index, some (.unknownPattern id h.numPatterns.toNat)) ∧
      (h.attempt id offset).recorded = h.recorded) ∨
    ((0 ≤ id.toInt ∧ id.toInt < h.numPatterns) ∧ offset < 0 ∧
      h.index.add id offset = (h.index, some (.negativeOffset id offset)) ∧
      (h.attempt id offset).recorded = h.recorded) ∨
    ((0 ≤ id.toInt ∧ id.toInt < h.numPatterns) ∧ ¬ offset < 0 ∧
      (h.index.add id offset).2 = none ∧
      (h.attempt id offset).recorded = h.recorded ++ [(id, offset)]) := by
  have hzero : (0 : Int32).toInt = 0 := rfl
  have hzero' : (0 : Int64).toInt = 0 := rfl
  simp only [MatchIndex.add, numPatterns_index, recorded_attempt, Int32.lt_iff_toInt_lt,
    Int64.lt_iff_toInt_lt, hzero, hzero']
  by_cases hid : 0 ≤ id.toInt ∧ id.toInt < h.numPatterns
  · have hknown : ¬ (id.toInt < 0 ∨ h.numPatterns.toNat ≤ id.toInt.toNat) := by omega
    rw [if_neg hknown]
    by_cases hoffset : offset.toInt < 0
    · rw [if_pos hoffset, if_neg (by omega)]
      exact .inr (.inl ⟨hid, hoffset, rfl, rfl⟩)
    · rw [if_neg hoffset, if_pos ⟨hid, by omega⟩]
      exact .inr (.inr ⟨hid, hoffset, rfl, rfl⟩)
  · have hunknown : id.toInt < 0 ∨ h.numPatterns.toNat ≤ id.toInt.toNat := by omega
    rw [if_pos hunknown, if_neg fun htaken => hid htaken.1]
    exact .inl ⟨hid, rfl, rfl⟩

theorem mem_listed_source {id : PatternId} {offset : Int64} :
    offset ∈ h.source.listed id ↔ (id, offset) ∈ h.recorded := by
  rw [h.ordered_source.mem_listed]
  constructor
  · rintro ⟨k, hk, heq⟩
    obtain ⟨offset', hmem, heq'⟩ := records_source.mp hk
    exact Int64.toInt_inj.mp (heq'.symm.trans heq) ▸ hmem
  · intro hmem
    have hnonneg : 0 ≤ offset.toInt := by
      have htaken := (List.mem_filter.mp hmem).2
      simp only [Bool.and_eq_true, decide_eq_true_eq] at htaken
      exact htaken.2
    have hvalue : (offset.toInt.toNat : Int) = offset.toInt := Int.toNat_of_nonneg hnonneg
    exact ⟨_, records_source.mpr ⟨offset, hmem, hvalue⟩, hvalue⟩

/-- Histories that record the same of a pattern give the same answers about it. -/
theorem agreesOn_of_recorded {other : IndexHistory} {id : PatternId}
    (hsame : ∀ offset, (id, offset) ∈ other.recorded ↔ (id, offset) ∈ h.recorded) :
    other.source.AgreesOn h.source id := by
  refine other.ordered_source.agreesOn h.ordered_source ?_
  intro k
  simp only [records_source, hsame]

/-- A range query asks for a recorded offset within the bounds. -/
theorem matchedIn_source {id : PatternId} {lower upper : Int64} :
    h.source.matchedIn id lower upper = true ↔
      ∃ offset, (id, offset) ∈ h.recorded ∧ lower ≤ offset ∧ offset ≤ upper := by
  simp only [MatchSource.matchedIn_iff, records_source, Int64.le_iff_toInt_le]
  constructor
  · rintro ⟨k, ⟨offset, hmem, heq⟩, hlow, hhigh⟩
    exact ⟨offset, hmem, by omega, by omega⟩
  · rintro ⟨offset, hmem, hlow, hhigh⟩
    have hlisted := h.mem_listed_source.mpr hmem
    obtain ⟨k, hk, heq⟩ := h.ordered_source.mem_listed.mp hlisted
    exact ⟨k, records_source.mp hk, by omega, by omega⟩

theorem matchedAt_source {id : PatternId} {offset : Int64} :
    h.source.matchedAt id offset = true ↔ (id, offset) ∈ h.recorded := by
  rw [MatchSource.matchedAt_iff, ← mem_listed_source, h.ordered_source.mem_listed]

theorem matched_source {id : PatternId} :
    h.source.matched id = true ↔ ∃ offset, (id, offset) ∈ h.recorded := by
  simp only [MatchSource.matched_iff, records_source]
  constructor
  · rintro ⟨k, offset, hmem, _⟩
    exact ⟨offset, hmem⟩
  · rintro ⟨offset, hmem⟩
    obtain ⟨k, hk, _⟩ := h.ordered_source.mem_listed.mp (h.mem_listed_source.mpr hmem)
    exact ⟨k, records_source.mp hk⟩

end IndexHistory

/-! ### Indexes of scans -/

/-- Queries are answered by recorded matches. Both bounds of a range are included in it. -/
structure PatternSource.Answers (x : PatternSource) (recorded : List (PatternId × Int64)) : Prop where
  matched : ∀ id, x.matched id = true ↔ ∃ offset, (id, offset) ∈ recorded
  matchedAt : ∀ id offset, x.matchedAt id offset = true ↔ (id, offset) ∈ recorded
  matchedIn : ∀ id lower upper, x.matchedIn id lower upper = true ↔
    ∃ offset, (id, offset) ∈ recorded ∧ lower ≤ offset ∧ offset ≤ upper

/-- Where the index of a scan comes from. -/
inductive IndexOrigin where
  /-- The scan has no index. -/
  | absent
  /-- The scan has one, but its recorded matches are missing. -/
  | missing
  | filled (h : IndexHistory)

namespace IndexOrigin

def source : IndexOrigin → PatternSource
  | absent => none
  | missing => some (MatchSource.patternIndex none)
  | filled h => some h.source.patternIndex

/-- The matches that are recorded. -/
def recorded : IndexOrigin → List (PatternId × Int64)
  | absent => []
  | missing => []
  | filled h => h.recorded

theorem answers (o : IndexOrigin) : o.source.Answers o.recorded := by
  cases o with
  | absent =>
    constructor <;>
      simp [source, recorded, PatternSource.matched, PatternSource.matchedAt, PatternSource.matchedIn]
  | missing =>
    have hset (id : PatternId) : MatchSource.set? none id = none := rfl
    constructor <;>
      simp [source, recorded, PatternSource.matched, PatternSource.matchedAt, PatternSource.matchedIn,
        MatchSource.patternIndex, MatchSource.matched, MatchSource.matchedAt, MatchSource.matchedIn, hset]
  | filled h =>
    exact ⟨fun _ => h.matched_source, fun _ _ => h.matchedAt_source, fun _ _ _ => h.matchedIn_source⟩

end IndexOrigin

/-- Range queries are exact at every bound, however the index was filled. The answer is yes exactly if
an offset from `lower` to `upper` was added and not refused. So a range of one offset asks for that
offset, the widest range asks for any, and a range can be asked for in two parts. -/
theorem IndexHistory.range_query_exact (h : IndexHistory) (id : PatternId) (lower upper : Int64) :
    (h.source.matchedIn id lower upper = true ↔
      ∃ offset, (id, offset) ∈ h.recorded ∧ lower ≤ offset ∧ offset ≤ upper) ∧
    h.source.matchedIn id lower lower = h.source.matchedAt id lower ∧
    h.source.matchedIn id Int64.minValue Int64.maxValue = h.source.matched id ∧
    ∀ mid, lower ≤ mid → mid < upper → h.source.matchedIn id lower upper =
      (h.source.matchedIn id lower mid || h.source.matchedIn id (mid + 1) upper) := by
  refine ⟨h.matchedIn_source, ?_, ?_, ?_⟩
  · rw [Bool.eq_iff_iff, matchedIn_source, matchedAt_source]
    constructor
    · rintro ⟨offset, hmem, hlow, hhigh⟩
      exact Int64.le_antisymm hlow hhigh ▸ hmem
    · intro hmem
      exact ⟨lower, hmem, Int64.le_refl lower, Int64.le_refl lower⟩
  · rw [Bool.eq_iff_iff, matchedIn_source, matched_source]
    constructor
    · rintro ⟨offset, hmem, _⟩
      exact ⟨offset, hmem⟩
    · rintro ⟨offset, hmem⟩
      exact ⟨offset, hmem, offset.minValue_le, offset.le_maxValue⟩
  · intro mid hlow hhigh
    have hnext : (mid + 1).toInt = mid.toInt + 1 := by
      have hone : (1 : Int64).toInt = 1 := rfl
      have hmin := mid.le_toInt
      have hmax := upper.toInt_lt
      rw [Int64.lt_iff_toInt_lt] at hhigh
      rw [Int64.toInt_add, hone, Int.bmod_eq_of_le (by omega) (by omega)]
    rw [Bool.eq_iff_iff, Bool.or_eq_true]
    simp only [matchedIn_source, Int64.le_iff_toInt_le, Int64.lt_iff_toInt_lt, hnext] at hlow hhigh ⊢
    constructor
    · rintro ⟨offset, hmem, hfrom, hto⟩
      by_cases hpart : offset.toInt ≤ mid.toInt
      · exact .inl ⟨offset, hmem, hfrom, hpart⟩
      · exact .inr ⟨offset, hmem, by omega, hto⟩
    · rintro (⟨offset, hmem, hfrom, hto⟩ | ⟨offset, hmem, hfrom, hto⟩)
      · exact ⟨offset, hmem, hfrom, by omega⟩
      · exact ⟨offset, hmem, by omega, hto⟩

/-- An index is a family of sets, one for each pattern. An addition is refused if there is no such
pattern, or else if the offset is negative, and then leaves the index as it was; it never changes the
answers about another pattern. The offsets of a pattern are listed in increasing order, and are those
of the additions that were not refused; the other queries are about this list. Histories with the same
additions that were not refused, in any order and any number, give the same answers. -/
theorem IndexHistory.index_family_of_sets (h : IndexHistory) :
    (∀ id offset,
      ((h.index.add id offset).2 = some (.unknownPattern id h.numPatterns.toNat) ↔
        ¬ (0 ≤ id.toInt ∧ id.toInt < h.numPatterns)) ∧
      ((h.index.add id offset).2 = some (.negativeOffset id offset) ↔
        (0 ≤ id.toInt ∧ id.toInt < h.numPatterns) ∧ offset < 0) ∧
      ((h.index.add id offset).2 = none ↔
        (0 ≤ id.toInt ∧ id.toInt < h.numPatterns) ∧ 0 ≤ offset) ∧
      (h.attempt id offset).index = (h.index.add id offset).1 ∧
      ((h.index.add id offset).2 = none →
        (h.attempt id offset).recorded = h.recorded ++ [(id, offset)]) ∧
      ∀ err, (h.index.add id offset).2 = some err → (h.index.add id offset).1 = h.index ∧
        (h.attempt id offset).recorded = h.recorded) ∧
    (∀ id offset other, other ≠ id → (h.attempt id offset).source.AgreesOn h.source other) ∧
    (∀ id,
      (h.source.listed id).Pairwise (· < ·) ∧
      (∀ offset, offset ∈ h.source.listed id ↔ (id, offset) ∈ h.recorded) ∧
      (h.source.offsetsOf? id = none ↔ ∀ offset, (id, offset) ∉ h.recorded) ∧
      (∀ offset, h.source.matchedAt id offset = true ↔ offset ∈ h.source.listed id) ∧
      (h.source.matched id = true ↔ h.source.listed id ≠ []) ∧
      ((∀ offset, (id, offset) ∉ h.recorded) → h.source.matched id = false ∧
        (∀ offset, h.source.matchedAt id offset = false) ∧
        ∀ lower upper, h.source.matchedIn id lower upper = false)) ∧
    ∀ other : IndexHistory, (∀ found, found ∈ other.recorded ↔ found ∈ h.recorded) →
      ∀ id, other.source.AgreesOn h.source id := by
  refine ⟨?_, ?_, ?_, ?_⟩
  · intro id offset
    have hindex := h.index_attempt id offset
    rcases h.attempt_cases id offset with
      ⟨hid, hadd, hrec⟩ | ⟨hid, hneg, hadd, hrec⟩ | ⟨hid, hneg, hadd, hrec⟩
    · rw [hadd] at hindex ⊢
      simp [hid, hindex, hrec]
    · have hrefused : ¬ 0 ≤ offset := Int64.not_le.mpr hneg
      rw [hadd] at hindex ⊢
      simp [hid, hneg, hrefused, hindex, hrec]
    · have htaken : 0 ≤ offset := Int64.not_lt.mp hneg
      rw [hadd]
      simp [hid, hneg, htaken, hindex, hrec]
  · intro id offset other hne
    refine h.agreesOn_of_recorded ?_
    intro offset'
    rw [recorded_attempt]
    split
    · simp [hne]
    · rfl
  · intro id
    refine ⟨h.ordered_source.pairwise_listed id, fun offset => h.mem_listed_source, ?_, ?_, ?_, ?_⟩
    · rw [h.ordered_source.offsetsOf?_eq_none_iff, ← not_exists, ← not_exists,
        ← MatchSource.matched_iff, matched_source]
    · intro offset
      rw [matchedAt_source, mem_listed_source]
    · simp only [matched_source, ne_eq, List.eq_nil_iff_forall_not_mem, mem_listed_source, not_forall,
        not_not]
    · intro hnone
      simp only [← Bool.not_eq_true, matched_source, matchedAt_source, matchedIn_source]
      refine ⟨not_exists.mpr hnone, hnone, ?_⟩
      rintro lower upper ⟨offset, hmem, _⟩
      exact hnone offset hmem
  · intro other hsame id
    exact h.agreesOn_of_recorded fun offset => hsame (id, offset)

/-- Refused and repeated additions leave no trace, and the order is that of the offsets. -/
example :
    (⟨2, [(1, 9), (1, -3), (1, 4), (5, 4), (1, 9)]⟩ : IndexHistory).source.offsetsOf? 1 =
      some [4, 9] := by decide

end RuleScan
