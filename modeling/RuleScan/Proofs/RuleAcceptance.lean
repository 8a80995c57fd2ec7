import RuleScan.Proofs.OnePassGeneration

/-!
# Which rules are accepted

A rule is accepted if its number is not negative and its condition has the type of booleans. Adding
rules emits the code of the accepted ones; each of the others has at least one error, which carries
its name. The checker of the one-pass generator finds no type exactly if it reports something, and
reports nothing when it is asked again about a rule that was accepted.
-/
namespace RuleScan

namespace Rule

/-- A rule whose code is emitted. -/
def Accepted (r : Rule) : Prop := 0 ≤ r.id.toInt ∧ HasType r.condition .bool

theorem accepted_iff {r : Rule} : r.Accepted ↔ r.faults = [] := by
  have hid : ¬ r.id < 0 ↔ 0 ≤ r.id.toInt := by
    rw [Int32.lt_iff_toInt_lt, Int32.toInt_zero, Int.not_lt]
  rw [faults_eq_nil, hid, Accepted]

instance (r : Rule) : Decidable r.Accepted := decidable_of_iff _ accepted_iff.symm

/-- The instructions that a rule adds. -/
def emission (r : Rule) : List Instr := if r.Accepted then r.program else []

theorem flatMap_emission (rules : List Rule) :
    (emitted rules).flatMap program = rules.flatMap emission := by
  induction rules with
  | nil => rfl
  | cons r rules ih =>
    by_cases hfaults : r.faults = []
    · have hemitted : emitted (r :: rules) = r :: emitted rules := by simp [emitted, hfaults]
      rw [hemitted, List.flatMap_cons, List.flatMap_cons, ih, emission,
        if_pos (accepted_iff.mpr hfaults)]
    · have hemitted : emitted (r :: rules) = emitted rules := by simp [emitted, hfaults]
      rw [hemitted, List.flatMap_cons, ih, emission, if_neg (mt accepted_iff.mp hfaults),
        List.nil_append]

theorem emission_of_accepted {r : Rule} (h : r.Accepted) : r.emission ≠ [] ∧ r.errors = [] := by
  rw [emission, if_pos h, program_eq, errors, accepted_iff.mp h]
  exact ⟨List.cons_ne_nil _ _, rfl⟩

theorem emission_of_refused {r : Rule} (h : ¬ r.Accepted) :
    r.emission = [] ∧ r.errors ≠ [] ∧ ∀ e ∈ r.errors, e.rule = r.label := by
  refine ⟨if_neg h, ?_, ?_⟩
  · intro hnil
    exact h (accepted_iff.mpr (List.map_eq_nil_iff.mp hnil))
  · intro e he
    obtain ⟨f, _, rfl⟩ := List.mem_map.mp he
    rfl

end Rule

/-- Adding rules adds what each of them adds, in their order. -/
theorem Builder.addRules_emission {b : Builder} (h : b.phase = .drafting) (rules : List Rule) :
    b.addRules rules = .ok
      ({ b with body := b.body.extend (rules.flatMap Rule.emission) }, rules.flatMap Rule.errors) := by
  have hinstrs : (Rule.emittedCode rules).instrs = rules.flatMap Rule.emission := by
    rw [Rule.emittedCode, Rule.instrs_codeAll, Rule.flatMap_emission]
  rw [addRules_drafting h, hinstrs]

/-- What a check adds to the errors, which is nothing exactly if it finds a type. -/
theorem Generator.check_errors (c : Condition) (g : Generator) :
    ∃ new, (check c g).2 = { g with errors := g.errors ++ new } ∧
      ((check c g).1 = none ↔ new ≠ []) ∧ ∀ e ∈ new, e.rule = g.rule := by
  have hfinds := finds_check c
  rw [hfinds.apply]
  refine ⟨_, rfl, ?_, ?_⟩
  · cases hinfer : c.infer with
    | ok t => simp [Except.toOption, Inferred.faults]
    | error faults =>
      have hne : faults ≠ [] := fun hnil => hfinds.ne_nil (by rw [hinfer, hnil])
      simp [Except.toOption, Inferred.faults, hne]
  · intro e he
    obtain ⟨f, _, rfl⟩ := List.mem_map.mp he
    rfl

/-- The checker accepts exactly the rules whose number is not negative and whose condition is a
boolean. There are instructions and errors for each rule such that adding rules adds the instructions of
each and gives the errors of each, in the order of the rules: an accepted rule has instructions and no
error, any other has no instructions and at least one error, all with its name. So there is no error
exactly if all rules are accepted. The same comes from one pass that reports as it goes: a check finds no
type exactly if it reports something, and the checks made while an accepted rule is emitted report
nothing. -/
theorem Builder.addRules_accepts_typed_rules :
    ∃ (emitted : Rule → List Instr) (reported : Rule → List RuleError),
      (∀ r, (emitted r ≠ [] ∧ reported r = [] ↔ 0 ≤ r.id.toInt ∧ HasType r.condition .bool) ∧
        (¬ (0 ≤ r.id.toInt ∧ HasType r.condition .bool) → emitted r = [] ∧ reported r ≠ [] ∧
          ∀ e ∈ reported r,
            e.rule = if r.name = "" then "rule " ++ toString r.id.toInt else r.name)) ∧
      (∀ (b : Builder) (rules : List Rule), b.phase = .drafting →
        b.addRules rules = .ok
          ({ b with body := b.body.extend (rules.flatMap emitted) }, rules.flatMap reported) ∧
        (rules.flatMap reported = [] ↔
          ∀ r ∈ rules, 0 ≤ r.id.toInt ∧ HasType r.condition .bool)) ∧
      (∀ (b : Builder) (rules : List Rule), b.generate rules = b.addRules rules) ∧
      (∀ (c : Condition) (g : Generator), ∃ new,
        (Generator.check c g).2 = { g with errors := g.errors ++ new } ∧
        ((Generator.check c g).1 = none ↔ new ≠ []) ∧ ∀ e ∈ new, e.rule = g.rule) ∧
      ∀ (r : Rule) (g : Generator), HasType r.condition .bool →
        (Generator.genRule r g).2.errors = g.errors := by
  refine ⟨Rule.emission, Rule.errors, ?_, ?_, Builder.generate_eq, Generator.check_errors, ?_⟩
  · intro r
    refine ⟨⟨?_, Rule.emission_of_accepted⟩, Rule.emission_of_refused⟩
    rintro ⟨hemits, _⟩
    by_contra hrefused
    exact hemits (Rule.emission_of_refused hrefused).1
  · intro b rules hphase
    refine ⟨addRules_emission hphase rules, ?_⟩
    rw [List.flatMap_eq_nil_iff]
    refine forall₂_congr fun r _ => ⟨?_, fun h => (Rule.emission_of_accepted h).2⟩
    intro hnone
    by_contra hrefused
    exact (Rule.emission_of_refused hrefused).2.1 hnone
  · intro r g htype
    rw [Generator.genRule_apply htype]
    rfl

/-- A rule that is accepted before one without a name whose number is negative. All errors are of the
second one. -/
theorem Builder.addRules_negativeId :
    let first : Rule := ⟨0, "first", .compare .lt (.int 1) (.int 2)⟩
    let second : Rule := ⟨-1, "", .bool true⟩
    ∃ c errors, Builder.new.addRules [first, second] = .ok (c, errors) ∧ c.body.program ≠ #[] ∧
      errors ≠ [] ∧ ∀ e ∈ errors, e.rule = "rule -1" := by
  intro first second
  obtain ⟨emitted, reported, heach, hadd, _⟩ := addRules_accepts_typed_rules
  obtain ⟨hrules, _⟩ := hadd Builder.new [first, second] rfl
  obtain ⟨hemits, hsilent⟩ := (heach first).1.mpr
    ⟨by decide, .compareInt (by simp) (.int 1) (.int 2)⟩
  obtain ⟨hnothing, hreports, hnamed⟩ := (heach second).2 fun h => absurd h.1 (by decide)
  have hemitted : [first, second].flatMap emitted = emitted first := by simp [hnothing]
  have hreported : [first, second].flatMap reported = reported second := by simp [hsilent]
  rw [hemitted, hreported] at hrules
  refine ⟨_, _, hrules, ?_, hreports, hnamed⟩
  simpa [Body.extend, Builder.new, Body.empty] using hemits

end RuleScan
