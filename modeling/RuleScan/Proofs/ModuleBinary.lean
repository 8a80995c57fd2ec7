import RuleScan.Proofs.BuiltModules
import RuleScan.Proofs.InstructionCodec

/-!
# The binary of a module

The sizes in a binary divide it into its sections, and the reader of layouts gives back what the
sections hold. For a built module all of it is the same but the body, which is the encoding of the
program; since a program is read back from its encoding, a built module is known by its binary.
-/
namespace RuleScan

namespace Module

/-- The function of a built module in its code section: the runs of its three locals, and its
instructions. -/
def functionOf (body : List UInt8) : List UInt8 := [2, 1, 0x7e, 2, 0x7f] ++ body

theorem code_layoutOf (body : List UInt8) :
    Layout.vector Layout.writeBody [(mainLocals.map (·.2), body)] =
      1 :: Layout.sized (functionOf body) := by
  have hone : Leb128.ofNat 1 = [1] := Leb128.ofNat_of_lt (by decide)
  have htwo : Leb128.ofNat 2 = [2] := Leb128.ofNat_of_lt (by decide)
  have hlocals : Layout.runs (mainLocals.map (·.2)) = [(1, .i64), (2, .i32)] := rfl
  have hruns : Layout.vector Layout.writeRun [(1, .i64), (2, .i32)] = [2, 1, 0x7e, 2, 0x7f] := by
    simp only [Layout.vector, Layout.writeRun, List.length_cons, List.length_nil,
      List.flatMap_cons, List.flatMap_nil, hone, htwo]
    rfl
  simp only [Layout.vector, List.length_cons, List.length_nil, List.flatMap_cons, List.flatMap_nil,
    List.append_nil]
  rw [hone, Layout.writeBody, hlocals, hruns]
  rfl

theorem declared_layoutOf : Layout.vector Leb128.ofNat [mainIndex] = [1, 4] := by
  have hone : Leb128.ofNat 1 = [1] := Leb128.ofNat_of_lt (by decide)
  have hfour : Leb128.ofNat mainIndex = [4] := Leb128.ofNat_of_lt (by decide)
  simp only [Layout.vector, List.length_cons, List.length_nil, List.flatMap_cons,
    List.flatMap_nil, hone, hfour]
  rfl

/-- A built module has the layout of a built module around the encodings of its instructions. -/
theorem binary_of_build {b : Builder} {m : Module} (h : b.build.2 = .ok m) :
    ∃ parts, m.program.mapM Instr.encode = .ok parts ∧
      m.binary = (layoutOf parts.flatten).encode := by
  obtain ⟨encoded, hclose, rfl⟩ := Builder.build_ok h
  obtain ⟨_, _, parts, hparts, rfl⟩ := Body.close_ok hclose
  exact ⟨parts, hparts, rfl⟩

/-- Built modules are told apart by their programs. -/
theorem binary_eq_iff {b b' : Builder} {m m' : Module} (h : b.build.2 = .ok m)
    (h' : b'.build.2 = .ok m') : m'.binary = m.binary ↔ m'.program = m.program := by
  obtain ⟨parts, hparts, hbinary⟩ := binary_of_build h
  obtain ⟨parts', hparts', hbinary'⟩ := binary_of_build h'
  constructor
  · intro hsame
    have hlayout : layoutOf parts'.flatten = layoutOf parts.flatten := by
      rw [hbinary, hbinary'] at hsame
      have hread := Layout.decode_encode (layoutOf parts'.flatten)
      rw [hsame, Layout.decode_encode] at hread
      exact (Option.some.inj hread).symm
    have hbodies := congrArg (fun l => l.functions.map (·.body)) hlayout
    have hbody : parts'.flatten ++ [Opcode.end_.byte] = parts.flatten ++ [Opcode.end_.byte] :=
      (List.cons.inj hbodies).1
    exact Instr.eq_of_flatten_eq hparts' hparts (List.append_cancel_right hbody)
  · intro hsame
    rw [hsame, hparts] at hparts'
    rw [hbinary, hbinary', Except.ok.inj hparts']

/-- A built module is read back from its binary. The sizes divide the binary into six sections, of
which the fifth has one function after its size. The layout is that of every built module: the types of
the host functions and of the main function, the imports, the exported main function, its locals and
the names, and nothing else; the body is the encodings of the instructions of the program, from which
the program is read back, and one `end`. So two built modules have the same binary exactly if they have
the same program. -/
theorem binary_round_trip {b : Builder} {m : Module} (hbuild : b.build.2 = .ok m) :
    (∃ parts, m.program.mapM Instr.encode = .ok parts ∧
      Layout.readAll Instr.read parts.flatten = some m.program ∧
      Layout.decode m.binary = some {
        types := [⟨[.i32], []⟩, ⟨[.i32], [.i32]⟩, ⟨[.i32, .i64], [.i32]⟩,
          ⟨[.i32, .i64, .i64], [.i32]⟩, ⟨[], []⟩]
        imports := [⟨"internal", "rule_match", .function 0⟩, ⟨"internal", "is_pat_match", .function 1⟩,
          ⟨"internal", "is_pat_match_at", .function 2⟩, ⟨"internal", "is_pat_match_in", .function 3⟩]
        functions := [⟨4, [.i64, .i32, .i32], parts.flatten ++ [0x0b]⟩]
        exports := [⟨"main", .function 4⟩]
        names := some {
          functions := [(0, "rule_match"), (1, "is_pat_match"), (2, "is_pat_match_at"),
            (3, "is_pat_match_in"), (4, "main")]
          locals := [(4, [(0, "i64_tmp"), (1, "i32_tmp"), (2, "exception_flag")])] } } ∧
      ∃ types imports exports names, Layout.readSections m.binary = some [(1, types), (2, imports),
        (3, [1, 4]), (7, exports),
        (10, 1 :: Layout.sized (functionOf (parts.flatten ++ [0x0b]))), (0, names)]) ∧
    ∀ (b' : Builder) (m' : Module), b'.build.2 = .ok m' →
      (m'.binary = m.binary ↔ m'.program = m.program) := by
  obtain ⟨parts, hparts, hbinary⟩ := binary_of_build hbuild
  refine ⟨⟨parts, hparts, Instr.readAll_encode hparts, ?_, ?_⟩,
    fun _ _ hbuild' => binary_eq_iff hbuild hbuild'⟩
  · rw [hbinary, Layout.decode_encode]
    rfl
  · have hsections := Layout.readSections_encode (layoutOf parts.flatten)
    rw [sections_layoutOf, declared_layoutOf, code_layoutOf, ← hbinary] at hsections
    exact ⟨_, _, _, _, hsections⟩

/-- Pushes a number that needs two bytes, and drops it. -/
def dropNumber : Code := .plain (.i32Const (-65)) <| .plain .drop .done

theorem binary_of_dropNumber :
    ∃ (b : Builder) (m : Module) (layout : Layout), b.build.2 = .ok m ∧
      m.program = [.i32Const (-65), .op .drop] ∧
      Layout.decode m.binary = some layout ∧
      layout.functions.map (·.body) = [[0x41, 0xbf, 0x7f, 0x1a, 0x0b]] ∧
      ∀ (b' : Builder) (m' : Module), b'.build.2 = .ok m' → m'.program = [] →
        m'.binary ≠ m.binary := by
  have hbuild := Code.build_extend dropNumber
  obtain ⟨⟨parts, hparts, _, hdecode, _⟩, hknown⟩ := binary_round_trip hbuild
  have hbytes : parts.flatten = [0x41, 0xbf, 0x7f, 0x1a] := by
    rw [(Instr.mapM_encode_ok hparts).2]
    decide +kernel
  refine ⟨_, _, _, hbuild, rfl, hdecode, by rw [hbytes]; rfl, ?_⟩
  intro b' m' hbuild' hempty hsame
  have hprogram := (hknown b' m' hbuild').mp hsame
  rw [hempty] at hprogram
  contradiction

end Module

end RuleScan
