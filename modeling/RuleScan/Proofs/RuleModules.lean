import RuleScan.Proofs.EngineHistory
import RuleScan.Proofs.GeneratedValidity

/-!
# Modules of rules

Whatever the rules, the code of those without a fault can be built into a module, also when others
are refused. The module is valid and links, so every open engine compiles it.
-/
namespace RuleScan

theorem Builder.build_addRules (rules : List Rule) :
    ∃ b, Builder.new.addRules rules = .ok (b, rules.flatMap Rule.errors) ∧
      b.build.2 = .ok (Module.ofCode (Rule.emittedCode rules)) :=
  ⟨_, Builder.addRules_drafting rfl rules, Code.build_extend _⟩

theorem Module.ofRules_eq (rules : List Rule) :
    Module.ofRules rules =
      (.ok (Module.ofCode (Rule.emittedCode rules)), rules.flatMap Rule.errors) := by
  obtain ⟨b, hadd, hbuild⟩ := Builder.build_addRules rules
  rw [Module.ofRules, hadd]
  simp only [hbuild]

/-- The code generator emits valid modules that link, whatever the rules. The size of a function is a
32-bit number in a binary, so a longer module has no binary that could be loaded. -/
theorem Builder.addRules_build_compiles (rules : List Rule) :
    ∃ b m code, Builder.new.addRules rules = .ok (b, rules.flatMap Rule.errors) ∧
      b.build.2 = .ok m ∧ m.program = code.instrs ∧ code.isValidBody mainScope = true ∧
      (m.binary.length < UInt32.size →
        ∃ x, Executable.ofBinary? m.hash m.binary = some x ∧ x.own.map (·.code) = [code] ∧
          x.checkLinks = .ok () ∧
          ∀ e : Engine, e.closed = false → ∃ y, (e.compile (some m)).2 = .ok y) := by
  obtain ⟨b, hadd, hbuild⟩ := Builder.build_addRules rules
  have hbody := Rule.isValidBody_codeAll (Rule.hasType_of_emitted rules)
  refine ⟨b, _, Rule.emittedCode rules, hadd, hbuild, rfl, hbody, ?_⟩
  intro hsize
  have hlength := Nat.lt_of_le_of_lt (Module.length_ofCode (Rule.emittedCode rules)) hsize
  have haccepts (e : Engine) := e.accepts_ofCode hbody hlength
  have hfirst := haccepts (.fresh .default)
  exact ⟨_, hfirst.valid, rfl, hfirst.links, fun e hopen => (haccepts e).compile hopen⟩

end RuleScan
