import RuleScan.Module.Builder
import RuleScan.Proofs.EngineHistory
import RuleScan.Proofs.ModuleLayout
import RuleScan.Proofs.ValidCode

/-!
# Built modules

A built module differs from another one in its body only. It compiles to an executable exactly if
its body can be read, nests and is valid as the body of a main function; such an executable always
links, always instantiates, and runs its main function. Structured code can always be built; if it is
valid and its body has fewer than `2 ^ 32` bytes, it compiles back to itself.
-/
namespace RuleScan

/-- The types of a built module, which are also those of its functions. -/
def mainTypes : List FuncType := HostFunction.all.map (·.type) ++ [mainType]

/-- What the body of a main function can refer to. -/
def mainScope : Scope := ⟨mainTypes, mainTypes, mainLocals.map (·.2), [], mainType.results⟩

theorem mainScope_small : mainScope.Small := ⟨by decide, by decide, by decide⟩

/-- The main function of a built module. -/
def OwnFunction.main (code : Code) : OwnFunction := ⟨mainType, [.i64 0, .i32 0, .i32 0], code⟩

/-- What a built module imports: every host function. -/
def hostImports : List ImportedFunction :=
  HostFunction.all.map fun h => ⟨HostFunction.moduleName, h.name, h.type⟩

/-- The executable of a built module. -/
def Executable.ofBody (hash : String) (bytes : List UInt8) (code : Code) : Executable :=
  ⟨hash, Module.layoutOf bytes, hostImports, [.main code]⟩

/-- The instance of a built module. -/
def Instance.ofCode (code : Code) : Instance :=
  ⟨mainTypes, HostFunction.all.map .host ++ [.own 0 mainType], [.main code]⟩

/-- The body of a main function decides alone whether the function is valid. -/
theorem Layout.ownFunction?_main {bytes : List UInt8} {f : OwnFunction} :
    ownFunction? mainTypes mainTypes
        ⟨Module.mainIndex, mainLocals.map (·.2), bytes ++ [Opcode.end_.byte]⟩ = some f ↔
      ∃ tokens code, bytes.length + 1 < UInt32.size ∧
        Token.readAll (bytes ++ [Opcode.end_.byte]) = some tokens ∧
        Code.ofTokens? tokens = some code ∧ code.isValidBody mainScope = true ∧ f = .main code := by
  have htype : mainTypes[Module.mainIndex]? = some mainType := rfl
  simp only [ownFunction?, htype, List.length_append, List.length_singleton, Option.bind_eq_bind,
    Option.bind_some, Option.bind_eq_some_iff, Option.guard_eq_some']
  constructor
  · rintro ⟨_, hsize, tokens, hread, code, hnest, _, hvalid, hf⟩
    exact ⟨tokens, code, hsize, hread, hnest, hvalid, (Option.some.inj hf).symm⟩
  · rintro ⟨tokens, code, hsize, hread, hnest, hvalid, rfl⟩
    exact ⟨(), hsize, tokens, hread, code, hnest, (), hvalid, rfl⟩

namespace Executable

/-- The body of a built module decides alone whether it is valid. -/
theorem ofBinary?_layoutOf {hash : String} {bytes : List UInt8} {x : Executable} :
    ofBinary? hash (Module.layoutOf bytes).encode = some x ↔
      ∃ tokens code, bytes.length + 1 < UInt32.size ∧
        Token.readAll (bytes ++ [Opcode.end_.byte]) = some tokens ∧
        Code.ofTokens? tokens = some code ∧ code.isValidBody mainScope = true ∧
        x = ofBody hash bytes code := by
  let body : FunctionBody :=
    ⟨Module.mainIndex, mainLocals.map (·.2), bytes ++ [Opcode.end_.byte]⟩
  have himported : Layout.importedFunctions? (Module.layoutOf bytes).types
      (Module.layoutOf bytes).imports = some hostImports := rfl
  have hdeclared : (Module.layoutOf bytes).functions.mapM
      (fun f => (Module.layoutOf bytes).types[f.type]?) = some [mainType] := rfl
  have hvalid : guard ((Module.layoutOf bytes).isValid (hostImports.map (·.type) ++ [mainType]) = true) =
      some () := rfl
  have hfunctions : (Module.layoutOf bytes).functions.mapM (Layout.ownFunction?
      (Module.layoutOf bytes).types (hostImports.map (·.type) ++ [mainType])) =
        (Layout.ownFunction? mainTypes mainTypes body).map fun f => [f] := by
    show [body].mapM (Layout.ownFunction? mainTypes mainTypes) = _
    rw [List.mapM_cons, List.mapM_nil]
    cases Layout.ownFunction? mainTypes mainTypes body <;> rfl
  have hown : ofBinary? hash (Module.layoutOf bytes).encode =
      (Layout.ownFunction? mainTypes mainTypes body).map
        fun f => ⟨hash, Module.layoutOf bytes, hostImports, [f]⟩ := by
    simp only [ofBinary?, Layout.decode_encode, ofLayout?, himported, hdeclared, hvalid, hfunctions,
      Option.bind_eq_bind, Option.bind_some]
    cases Layout.ownFunction? mainTypes mainTypes body <;> rfl
  rw [hown, Option.map_eq_some_iff]
  constructor
  · rintro ⟨f, hf, rfl⟩
    obtain ⟨tokens, code, hsize, hread, hnest, hvalid, rfl⟩ := Layout.ownFunction?_main.mp hf
    exact ⟨tokens, code, hsize, hread, hnest, hvalid, rfl⟩
  · rintro ⟨tokens, code, hsize, hread, hnest, hvalid, rfl⟩
    exact ⟨.main code, Layout.ownFunction?_main.mpr ⟨tokens, code, hsize, hread, hnest, hvalid, rfl⟩,
      rfl⟩

theorem checkLinks_ofBody (hash : String) (bytes : List UInt8) (code : Code) :
    (ofBody hash bytes code).checkLinks = .ok () := rfl

theorem instantiate?_ofBody (hash : String) (bytes : List UInt8) (code : Code) :
    (ofBody hash bytes code).instantiate? = some (Instance.ofCode code) := rfl

end Executable

/-- Running the executable of a built module is calling its main function. -/
theorem Engine.execute_ofBody {e : Engine} (hopen : e.closed = false) (limits : Limits)
    (hash : String) (bytes : List UInt8) (code : Code) (scan : ScanState) :
    e.execute limits false (.ofBody hash bytes code) scan =
      let returned := (Instance.ofCode code).invoke limits.rounds limits.calls 0 [] scan
      ((returned.1.mapError RunError.halted).map fun _ => (), returned.2) := by
  have hmain : (Instance.ofCode code).run limits 4 scan =
      (Instance.ofCode code).invoke limits.rounds limits.calls 0 [] scan := rfl
  have hexport : (Executable.ofBody hash bytes code).exported? mainName = some 4 := rfl
  have hstart : Engine.startFunctions (.ofBody hash bytes code) = [] := rfl
  simp only [Engine.execute, hopen, Executable.instantiate?_ofBody, hstart, Engine.start,
    Engine.runMain, hexport, hmain, Bool.false_and, Bool.false_eq_true, if_false]
  obtain ⟨result, after⟩ := (Instance.ofCode code).invoke limits.rounds limits.calls 0 [] scan
  cases result <;> rfl

/-- A module that was built has the layout of a built module around the encoding of its program. -/
theorem Builder.build_ok {b : Builder} {m : Module} (h : b.build.2 = .ok m) :
    ∃ bytes, b.body.close = .ok bytes ∧
      m = Module.ofLayout (Module.layoutOf bytes) b.body.program.toList b.symbols := by
  unfold Builder.build at h
  split at h
  · contradiction
  · contradiction
  · cases hc : b.body.close with
    | error e => simp [hc, Except.map] at h
    | ok bytes =>
      simp only [hc, Except.map, Except.ok.injEq] at h
      exact ⟨bytes, rfl, h.symm⟩

/-! ### Modules of valid code -/

theorem Body.encode_instrs (ts : List Token) (n : Nat) :
    ((ts.map Token.instr).zipIdx n).mapM
      (fun (i, n) => i.encode.mapError (BuildError.encoding n)) = .ok (ts.map Token.bytes) := by
  induction ts generalizing n with
  | nil => rfl
  | cons t ts ih =>
    simp only [List.map_cons, List.zipIdx_cons, List.mapM_cons, Token.encode_instr, ih]
    rfl

/-- The body that holds the instructions of some code and nothing else is encoded as its tokens. -/
theorem Body.close_instrs (code : Code) :
    (Body.empty.extend code.instrs).close = .ok (code.tokens.flatMap Token.bytes) := by
  have hprogram : (Body.empty.extend code.instrs).program.toList = code.tokens.map Token.instr := by
    simp [Body.extend, Body.empty, Code.instrs]
  have hencode : (Body.empty.extend code.instrs).encode =
      .ok (code.tokens.flatMap Token.bytes) := by
    rw [Body.encode, hprogram, Body.encode_instrs]
    rfl
  exact hencode

/-- The module that is built from the instructions of some code. -/
def Module.ofCode (code : Code) : Module :=
  Module.ofLayout (Module.layoutOf (code.tokens.flatMap Token.bytes)) code.instrs .standard

namespace Code

/-- Validity of a body, with the operands that it ends with. -/
theorem check_of_isValidBody {code : Code} {c : Scope} (h : code.isValidBody c = true) :
    ∃ last, code.check (c.inside c.results) ⟨[], false⟩ = some last ∧
      last.isExactly c.results = true := by
  unfold isValidBody at h
  split at h
  · exact ⟨_, ‹_›, h⟩
  · contradiction

theorem isValidBody_of_check {code : Code} {c : Scope} {last : StackShape}
    (h : code.check (c.inside c.results) ⟨[], false⟩ = some last)
    (hexact : last.isExactly c.results = true) : code.isValidBody c = true := by
  rw [isValidBody, h]
  exact hexact

/-- A body that holds the instructions of some code can be built. -/
theorem build_extend (code : Code) :
    ({ Builder.new with body := Body.empty.extend code.instrs } : Builder).build.2 =
      .ok (Module.ofCode code) := by
  have hprogram : (Body.empty.extend code.instrs).program.toList = code.instrs := by
    simp [Body.extend, Body.empty]
  simp only [Builder.build, Builder.new, Body.close_instrs, hprogram]
  rfl

theorem readAll_tokens {code : Code} (h : code.isValidBody mainScope = true)
    (hsize : (code.tokens.flatMap Token.bytes).length + 1 < UInt32.size) :
    Token.readAll (code.tokens.flatMap Token.bytes ++ [Opcode.end_.byte]) =
      some (code.tokens ++ [.end_]) := by
  obtain ⟨last, hcheck, _⟩ := check_of_isValidBody h
  have hlen := Token.length_le_bytes code.tokens
  have hlabels : (mainScope.inside mainScope.results).labels.length = 1 := rfl
  have hfits := fits_of_check hcheck (mainScope_small.inside _) (by omega)
  exact Token.readAll_append hfits rfl

end Code

/-- The sections of a built module. -/
theorem Module.sections_layoutOf (bytes : List UInt8) : (layoutOf bytes).sections = [
    (0x01, Layout.vector Layout.writeFuncType (layoutOf bytes).types),
    (0x02, Layout.vector Layout.writeImport (layoutOf bytes).imports),
    (0x03, Layout.vector Leb128.ofNat [mainIndex]),
    (0x07, Layout.vector Layout.writeExport (layoutOf bytes).exports),
    (0x0a, Layout.vector Layout.writeBody [(mainLocals.map (·.2), bytes ++ [Opcode.end_.byte])]),
    (0x00, ((layoutOf bytes).names.map Layout.writeNames).getD [])] := rfl

theorem Module.length_ofCode (code : Code) :
    (code.tokens.flatMap Token.bytes).length + 1 ≤ (Module.ofCode code).binary.length := by
  have hbinary : (Module.ofCode code).binary =
      (Module.layoutOf (code.tokens.flatMap Token.bytes)).encode := rfl
  rw [hbinary, Layout.encode, Module.sections_layoutOf]
  simp only [Layout.writeSections, Layout.section_, Layout.sized, Layout.vector, Layout.writeBody,
    List.flatMap_cons, List.length_append, List.length_cons]
  omega

namespace Executable

/-- The module of valid code compiles back to that code, if its body is not too long. -/
theorem ofBinary?_ofCode {code : Code} (h : code.isValidBody mainScope = true) (hash : String)
    {x : Executable} :
    ofBinary? hash (Module.ofCode code).binary = some x ↔
      (code.tokens.flatMap Token.bytes).length + 1 < UInt32.size ∧
        x = ofBody hash (code.tokens.flatMap Token.bytes) code := by
  have hbinary : (Module.ofCode code).binary =
      (Module.layoutOf (code.tokens.flatMap Token.bytes)).encode := rfl
  rw [hbinary, ofBinary?_layoutOf]
  constructor
  · rintro ⟨tokens, code', hsize, hread, hnest, _, rfl⟩
    rw [Code.readAll_tokens h hsize, Option.some.injEq] at hread
    rw [← hread, Code.ofTokens?_tokens, Option.some.injEq] at hnest
    exact ⟨hsize, by rw [hnest]⟩
  · rintro ⟨hsize, rfl⟩
    exact ⟨_, code, hsize, Code.readAll_tokens h hsize, Code.ofTokens?_tokens code, h, rfl⟩

end Executable

/-- Every engine accepts a built module that is valid. -/
theorem Engine.accepts_ofBody (e : Engine) {m : Module} {bytes : List UInt8} {code : Code}
    (h : Executable.ofBinary? m.hash m.binary = some (.ofBody m.hash bytes code)) :
    e.Accepts m (.ofBody m.hash bytes code) := ⟨h, rfl, Executable.checkLinks_ofBody _ _ _⟩

theorem Engine.accepts_ofCode (e : Engine) {code : Code} (h : code.isValidBody mainScope = true)
    (hsize : (code.tokens.flatMap Token.bytes).length + 1 < UInt32.size) :
    e.Accepts (Module.ofCode code)
      (.ofBody (Module.ofCode code).hash (code.tokens.flatMap Token.bytes) code) :=
  e.accepts_ofBody ((Executable.ofBinary?_ofCode h _).mpr ⟨hsize, rfl⟩)

end RuleScan
