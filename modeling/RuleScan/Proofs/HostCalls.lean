import RuleScan.Machine.Exec
import RuleScan.Proofs.InstructionStream

/-!
# Calls of host functions

A call takes its arguments from the top of the stack. Each host function answers a call from its
slots with the query or the report that its arguments ask for, and so never fails.
-/
namespace RuleScan

theorem Value.of_type_i32 {v : Value} (h : v.type = .i32) : ∃ a, v = .i32 a := by
  cases v with
  | i32 a => exact ⟨a, rfl⟩
  | i64 a => contradiction
  | blank t hblank =>
    obtain rfl : t = .i32 := h
    contradiction

theorem Value.of_type_i64 {v : Value} (h : v.type = .i64) : ∃ a, v = .i64 a := by
  cases v with
  | i32 a => contradiction
  | i64 a => exact ⟨a, rfl⟩
  | blank t hblank =>
    obtain rfl : t = .i64 := h
    contradiction

theorem Value.of_map_type_pair {args : List Value} {t u : ValType}
    (h : args.map Value.type = [t, u]) : ∃ v w, args = [v, w] ∧ v.type = t ∧ w.type = u := by
  obtain ⟨v, _, rfl, hv, hrest⟩ := List.map_eq_cons_iff.mp h
  obtain ⟨w, rfl, hw⟩ := List.map_eq_singleton_iff.mp hrest
  exact ⟨v, w, rfl, hv, hw⟩

theorem splitStack_append (top below : List Value) :
    splitStack top.length (top ++ below) = some (top, below) := by
  rw [splitStack, if_pos (by rw [List.length_append]; omega), List.take_left, List.drop_left]

theorem takeArguments_reverse {args : List Value} {params : List ValType}
    (h : args.map Value.type = params) (below : List Value) :
    takeArguments params (args.reverse ++ below) = some (args, below) := by
  have hlen : params.length = args.reverse.length := by rw [← h]; simp
  rw [takeArguments, hlen, splitStack_append]
  simp only [Option.bind_eq_bind, Option.bind_some, List.reverse_reverse,
    (Option.guard_eq_some' ()).mpr h]
  rfl

namespace HostFunction

theorem arg32_slot (v : Int32) (slots : List UInt64) :
    arg32 ((Value.i32 v).slot :: slots) 0 = v := by
  simp [arg32, Value.slot]

theorem ofSlot?_boolSlot (b : Bool) : Value.ofSlot? .i32 (boolSlot b) = some (.ofBool b) := by
  cases b <;> rfl

theorem invoke_ruleMatch (id : Int32) (scan : ScanState) :
    ruleMatch.invoke [.i32 id] scan = (.ok [], scan.ruleMatch id) := by
  simp only [invoke, serve, List.map_cons, List.map_nil, arg32_slot]
  rfl

theorem invoke_isPatternMatch (p : Int32) (scan : ScanState) :
    isPatternMatch.invoke [.i32 p] scan = (.ok [.ofBool (scan.index.matched p)], scan) := by
  simp only [invoke, serve, List.map_cons, List.map_nil, arg32_slot, ScanState.isPatternMatch]
  simp [type, reply, ofSlot?_boolSlot]

theorem invoke_isPatternMatchAt (p : Int32) (o : Int64) (scan : ScanState) :
    isPatternMatchAt.invoke [.i32 p, .i64 o] scan =
      (.ok [.ofBool (scan.index.matchedAt p o)], scan) := by
  have harg : arg64 [(Value.i32 p).slot, (Value.i64 o).slot] 1 = o := by
    simp [arg64, Value.slot]
  simp only [invoke, serve, List.map_cons, List.map_nil, arg32_slot, harg,
    ScanState.isPatternMatchAt]
  simp [type, reply, ofSlot?_boolSlot]

theorem invoke_isPatternMatchIn (p : Int32) (l u : Int64) (scan : ScanState) :
    isPatternMatchIn.invoke [.i32 p, .i64 l, .i64 u] scan =
      (.ok [.ofBool (scan.index.matchedIn p l u)], scan) := by
  have hlower : arg64 [(Value.i32 p).slot, (Value.i64 l).slot, (Value.i64 u).slot] 1 = l := by
    simp [arg64, Value.slot]
  have hupper : arg64 [(Value.i32 p).slot, (Value.i64 l).slot, (Value.i64 u).slot] 2 = u := by
    simp [arg64, Value.slot]
  simp only [invoke, serve, List.map_cons, List.map_nil, arg32_slot, hlower, hupper,
    ScanState.isPatternMatchIn]
  simp [type, reply, ofSlot?_boolSlot]

/-- A host function never fails: with arguments of its parameter types it gives results of its result
types. -/
theorem invoke_ok (h : HostFunction) {args : List Value} (hargs : args.map Value.type = h.type.params)
    (scan : ScanState) :
    ∃ results after, h.invoke args scan = (.ok results, after) ∧
      results.map Value.type = h.type.results := by
  cases h with
  | ruleMatch =>
    obtain ⟨v, rfl, hv⟩ := List.map_eq_singleton_iff.mp hargs
    obtain ⟨id, rfl⟩ := Value.of_type_i32 hv
    exact ⟨_, _, invoke_ruleMatch id scan, rfl⟩
  | isPatternMatch =>
    obtain ⟨v, rfl, hv⟩ := List.map_eq_singleton_iff.mp hargs
    obtain ⟨p, rfl⟩ := Value.of_type_i32 hv
    exact ⟨_, _, invoke_isPatternMatch p scan, rfl⟩
  | isPatternMatchAt =>
    obtain ⟨v, w, rfl, hv, hw⟩ := Value.of_map_type_pair hargs
    obtain ⟨p, rfl⟩ := Value.of_type_i32 hv
    obtain ⟨o, rfl⟩ := Value.of_type_i64 hw
    exact ⟨_, _, invoke_isPatternMatchAt p o scan, rfl⟩
  | isPatternMatchIn =>
    obtain ⟨v, _, rfl, hv, hbounds⟩ := List.map_eq_cons_iff.mp hargs
    obtain ⟨l, u, rfl, hl, hu⟩ := Value.of_map_type_pair hbounds
    obtain ⟨p, rfl⟩ := Value.of_type_i32 hv
    obtain ⟨lower, rfl⟩ := Value.of_type_i64 hl
    obtain ⟨upper, rfl⟩ := Value.of_type_i64 hu
    exact ⟨_, _, invoke_isPatternMatchIn p lower upper scan, rfl⟩

end HostFunction

end RuleScan
