import Mathlib.Data.Option.Basic
import RuleScan.Module.Reader
import RuleScan.Proofs.InstructionStream

/-!
# Reading a module layout back

`Layout.decode` gives back every layout that `Layout.encode` wrote. Each reader is shown to take
exactly the bytes of its writer from in front of any others; the readers of sequences inherit this from
the readers of their items. A section is found by its number, since the numbers are all different, and
the sections that are present are in the order of all sections.
-/
namespace RuleScan.Layout

open Leb128

/-- The reader takes what the writer wrote from the front of any bytes, and nothing more. -/
def ReadsBack {α : Type} (write : α → List UInt8) (read : Reader α) : Prop :=
  ∀ a rest, read (write a ++ rest) = some (a, rest)

theorem readNat_readsBack : ReadsBack Leb128.ofNat Leb128.readNat := readNat_ofNat

theorem readByte_cons (b : UInt8) (rest : List UInt8) : readByte b (b :: rest) = some ((), rest) :=
  if_pos rfl

theorem readBytes_append (bytes rest : List UInt8) :
    readBytes bytes.length (bytes ++ rest) = some (bytes, rest) := by
  have hle : bytes.length ≤ (bytes ++ rest).length := by simp
  rw [readBytes, if_pos hle, List.take_left, List.drop_left]

section Readers

variable {α : Type} {write : α → List UInt8} {read : Reader α}

theorem whole_of_read {a : α} {content : List UInt8} (h : read content = some (a, [])) :
    whole read content = some a := by
  rw [whole, h]

theorem ReadsBack.whole (h : ReadsBack write read) (a : α) : whole read (write a) = some a := by
  refine whole_of_read ?_
  have ha := h a []
  rwa [List.append_nil] at ha

theorem readSized_sized {a : α} {content : List UInt8} (h : read content = some (a, []))
    (rest : List UInt8) : readSized read (sized content ++ rest) = some (a, rest) := by
  simp only [readSized, sized, List.append_assoc, readNat_ofNat, readBytes_append, whole_of_read h,
    Option.bind_eq_bind, Option.bind_some]
  rfl

theorem readRest_sized (content rest : List UInt8) :
    readSized readRest (sized content ++ rest) = some (content, rest) :=
  readSized_sized rfl rest

theorem readTimes_flatMap (h : ReadsBack write read) (xs : List α) (rest : List UInt8) :
    readTimes read xs.length (xs.flatMap write ++ rest) = some (xs, rest) := by
  induction xs with
  | nil => rfl
  | cons x xs ih =>
    simp only [List.length_cons, List.flatMap_cons, List.append_assoc, readTimes, h x, ih,
      Option.bind_eq_bind, Option.bind_some]
    rfl

theorem ReadsBack.vector (h : ReadsBack write read) :
    ReadsBack (vector write) (readVector read) := by
  intro xs rest
  simp only [Layout.vector, readVector, List.append_assoc, readNat_ofNat, Option.bind_eq_bind,
    Option.bind_some, readTimes_flatMap h]

theorem readAs_of_read {β : Type} {a : α} {bytes rest : List UInt8} (f : α → β)
    (h : read bytes = some (a, rest)) : readAs f read bytes = some (f a, rest) := by
  simp only [readAs, h, Option.bind_eq_bind, Option.bind_some]
  rfl

theorem readTagged_cons {readers : List (UInt8 × Reader α)} {tag : UInt8}
    (h : readers.lookup tag = some read) (bytes : List UInt8) :
    readTagged readers (tag :: bytes) = read bytes := by
  simp only [readTagged, h, Option.bind_eq_bind, Option.bind_some]

end Readers

/-! ### Items up to the end -/

theorem readUpTo_flatMap {α : Type} {write : α → List UInt8} {read : Reader α} {xs : List α}
    (h : ∀ x ∈ xs, write x ≠ [] ∧ ∀ rest, read (write x ++ rest) = some (x, rest)) {count : Nat}
    (hcount : (xs.flatMap write).length ≤ count) :
    readUpTo read count (xs.flatMap write) = some xs := by
  induction xs generalizing count with
  | nil => cases count <;> rfl
  | cons x xs ih =>
    obtain ⟨⟨hne, hread⟩, hxs⟩ := List.forall_mem_cons.mp h
    obtain ⟨b, bytes, hx⟩ := List.exists_cons_of_ne_nil hne
    rw [List.flatMap_cons, List.length_append, hx, List.length_cons] at hcount
    obtain ⟨count, rfl⟩ : ∃ c, count = c + 1 := ⟨count - 1, by omega⟩
    have hfirst := hread (xs.flatMap write)
    have hrest : readUpTo read count (xs.flatMap write) = some xs := ih hxs (by omega)
    rw [List.flatMap_cons]
    rw [hx, List.cons_append] at hfirst ⊢
    simp only [readUpTo, hfirst, hrest, Option.bind_eq_bind, Option.bind_some]
    rfl

/-- Items that are read back one by one are read back as a whole. -/
theorem readAll_flatMap {α : Type} {write : α → List UInt8} {read : Reader α} {xs : List α}
    (h : ∀ x ∈ xs, write x ≠ [] ∧ ∀ rest, read (write x ++ rest) = some (x, rest)) :
    readAll read (xs.flatMap write) = some xs :=
  readUpTo_flatMap h (Nat.le_refl _)

/-! ### Strings -/

theorem byteList_loop (bs : ByteArray) (i : Nat) (taken : List UInt8) :
    ByteArray.toList.loop bs i taken = taken.reverse ++ bs.data.toList.drop i := by
  fun_induction ByteArray.toList.loop bs i taken with
  | case1 i taken hi ih =>
    have hl : i < bs.data.toList.length := by simpa using hi
    have hget : bs.get! i = bs.data.toList[i] := by
      rw [Array.getElem_toList]
      exact getElem!_pos bs.data i hi
    rw [ih, hget, List.reverse_cons, List.append_assoc, List.singleton_append,
      List.getElem_cons_drop]
  | case2 i taken hi =>
    have hd : bs.data.toList.drop i = [] := List.drop_eq_nil_of_le (by simpa using hi)
    rw [hd, List.append_nil]

theorem ofBytes_toList (bs : ByteArray) : (⟨bs.toList.toArray⟩ : ByteArray) = bs := by
  rw [ByteArray.toList, byteList_loop]
  simp

/-- A string is decoded from its own bytes. -/
theorem fromUTF8?_bytes (s : String) : String.fromUTF8? s.toUTF8 = some s := by
  have hv : s.toUTF8.IsValidUTF8 := s.isValidUTF8
  rw [String.fromUTF8?, dif_pos hv]
  rfl

theorem readString_string : ReadsBack string readString := by
  intro s rest
  have hs : readSized readRest (sized s.toUTF8.toList ++ rest) = some (s.toUTF8.toList, rest) :=
    readSized_sized rfl rest
  simp only [readString, string, hs, Option.bind_eq_bind, Option.bind_some, ofBytes_toList,
    fromUTF8?_bytes]
  rfl

/-! ### The items of the sections -/

theorem ofByte?_byte (t : ValType) : ValType.ofByte? t.byte = some t := by
  cases t <;> rfl

theorem readValType_write : ReadsBack writeValType readValType := by
  intro t rest
  simp only [writeValType, List.cons_append, List.nil_append, readValType, ofByte?_byte,
    Option.bind_eq_bind, Option.bind_some]
  rfl

theorem readFuncType_write : ReadsBack writeFuncType readFuncType := by
  intro t rest
  have hv := readValType_write.vector
  simp only [readFuncType, writeFuncType, List.cons_append, readByte_cons, Option.bind_eq_bind,
    Option.bind_some, List.append_assoc, hv t.params, hv t.results]
  rfl

theorem readSizeRange_write : ReadsBack writeSizeRange readSizeRange := by
  rintro ⟨min, max⟩ rest
  cases max with
  | none =>
    have hmin : readNat (Leb128.ofNat min ++ rest) = some (min, rest) := readNat_ofNat min rest
    exact (readTagged_cons rfl _).trans (readAs_of_read (fun n => SizeRange.mk n none) hmin)
  | some max =>
    have htag : readSizeRange (0x01 :: (Leb128.ofNat min ++ (Leb128.ofNat max ++ rest))) =
        readMaximum (Leb128.ofNat min ++ (Leb128.ofNat max ++ rest)) := readTagged_cons rfl _
    simp only [writeSizeRange, List.cons_append, List.append_assoc, htag, readMaximum, readNat_ofNat,
      Option.bind_eq_bind, Option.bind_some]
    rfl

theorem readTableType_write : ReadsBack writeTableType readTableType := by
  intro t rest
  simp only [readTableType, writeTableType, List.append_assoc, readValType_write t.element,
    readSizeRange_write t.size, Option.bind_eq_bind, Option.bind_some]
  rfl

theorem readGlobalType_write : ReadsBack writeGlobalType readGlobalType := by
  rintro ⟨type, mutable⟩ rest
  simp only [readGlobalType, writeGlobalType, List.append_assoc, readValType_write type,
    Option.bind_eq_bind, Option.bind_some]
  cases mutable <;> rfl

theorem readImportKind_write : ReadsBack writeImportKind readImportKind := by
  intro k rest
  cases k with
  | function t => exact (readTagged_cons rfl _).trans (readAs_of_read _ (readNat_ofNat t rest))
  | table t => exact (readTagged_cons rfl _).trans (readAs_of_read _ (readTableType_write t rest))
  | memory s => exact (readTagged_cons rfl _).trans (readAs_of_read _ (readSizeRange_write s rest))
  | global t => exact (readTagged_cons rfl _).trans (readAs_of_read _ (readGlobalType_write t rest))

theorem readImport_write : ReadsBack writeImport readImport := by
  intro i rest
  simp only [readImport, writeImport, List.append_assoc, readString_string i.module,
    readString_string i.name, readImportKind_write i.kind, Option.bind_eq_bind, Option.bind_some]
  rfl

theorem readExportKind_write : ReadsBack writeExportKind readExportKind := by
  intro k rest
  cases k with
  | function i | table i | memory i | global i =>
    exact (readTagged_cons rfl _).trans (readAs_of_read _ (readNat_ofNat i rest))

theorem readExport_write : ReadsBack writeExport readExport := by
  intro e rest
  simp only [readExport, writeExport, List.append_assoc, readString_string e.name,
    readExportKind_write e.kind, Option.bind_eq_bind, Option.bind_some]
  rfl

/-- Bits are read back from as many bytes as hold them. -/
theorem readBits_write (count : Nat) (bits : BitVec (8 * count)) (rest : List UInt8) :
    readLittleEndian count (littleEndian count bits.toNat ++ rest) = some (bits.toNat, rest) := by
  have hlowest (count n : Nat) : readLittleEndian count (littleEndian count n ++ rest) =
      some (n % 256 ^ count, rest) := by
    induction count generalizing n with
    | zero => simp [readLittleEndian, littleEndian, Nat.mod_one]
    | succ count ih =>
      have hbyte : (UInt8.ofNat (n % 256)).toNat = n % 256 := by simp
      simp only [littleEndian, List.cons_append, readLittleEndian, ih, hbyte, Option.bind_eq_bind,
        Option.bind_some, Nat.pow_succ', Nat.mod_mul]
      rfl
  have hlt : bits.toNat < 256 ^ count := by
    have h := bits.isLt
    rwa [Nat.pow_mul] at h
  rw [hlowest, Nat.mod_eq_of_lt hlt]

theorem readConst_write : ReadsBack writeConst readConst := by
  intro e rest
  cases e with
  | i32 v =>
    have hv : -((0x80000000 : Nat) : Int) ≤ v.toInt ∧ v.toInt < (0x80000000 : Nat) :=
      ⟨v.le_toInt, v.toInt_lt⟩
    refine (readTagged_cons rfl _).trans ((readAs_of_read _ (Token.readSigned_ofInt hv rest)).trans ?_)
    rw [Int32.ofInt_toInt]
  | i64 v =>
    have hv : -((0x8000000000000000 : Nat) : Int) ≤ v.toInt ∧
        v.toInt < (0x8000000000000000 : Nat) := ⟨v.le_toInt, v.toInt_lt⟩
    refine (readTagged_cons rfl _).trans ((readAs_of_read _ (Token.readSigned_ofInt hv rest)).trans ?_)
    rw [Int64.ofInt_toInt]
  | f32 bits =>
    refine (readTagged_cons rfl _).trans ((readAs_of_read _ (readBits_write 4 bits rest)).trans ?_)
    rw [BitVec.ofNat_toNat, BitVec.setWidth_eq]
  | f64 bits =>
    refine (readTagged_cons rfl _).trans ((readAs_of_read _ (readBits_write 8 bits rest)).trans ?_)
    rw [BitVec.ofNat_toNat, BitVec.setWidth_eq]
  | v128 bits =>
    have hbits : readVector128 (0x0c :: (littleEndian 16 bits.toNat ++ rest)) =
        readAs (fun n => .v128 (.ofNat 128 n)) (readLittleEndian 16)
          (littleEndian 16 bits.toNat ++ rest) := by
      simp only [readVector128, readByte_cons, Option.bind_eq_bind, Option.bind_some]
    refine (readTagged_cons rfl _).trans (hbits.trans ?_)
    refine (readAs_of_read _ (readBits_write 16 bits rest)).trans ?_
    rw [BitVec.ofNat_toNat, BitVec.setWidth_eq]
  | refNull t => exact (readTagged_cons rfl _).trans (readAs_of_read _ (readValType_write t rest))
  | refFunc i | globalGet i =>
    exact (readTagged_cons rfl _).trans (readAs_of_read _ (readNat_ofNat i rest))

theorem readConstExpr_write : ReadsBack writeConstExpr readConstExpr := by
  intro e rest
  simp only [readConstExpr, writeConstExpr, List.append_assoc, List.cons_append, List.nil_append,
    readConst_write e, readByte_cons, Option.bind_eq_bind, Option.bind_some]
  rfl

theorem readGlobal_write : ReadsBack writeGlobal readGlobal := by
  intro g rest
  simp only [readGlobal, writeGlobal, List.append_assoc, readGlobalType_write g.type,
    readConstExpr_write g.initial, Option.bind_eq_bind, Option.bind_some]
  rfl

theorem readPlacement_write : ReadsBack writePlacement readPlacement := by
  intro p rest
  simp only [readPlacement, writePlacement, List.append_assoc, readNat_ofNat,
    readConstExpr_write p.offset, Option.bind_eq_bind, Option.bind_some]
  rfl

theorem readMarkedIndexes_write (is : List Nat) (rest : List UInt8) :
    readMarkedIndexes (writeElementItems (.functions is) ++ rest) = some (.functions is, rest) := by
  simp only [readMarkedIndexes, writeElementItems, List.cons_append, readByte_cons,
    Option.bind_eq_bind, Option.bind_some]
  exact readAs_of_read _ (readNat_readsBack.vector is rest)

theorem readTypedExpressions_write (t : ValType) (es : List ConstExpr) (rest : List UInt8) :
    readTypedExpressions (writeElementItems (.expressions t es) ++ rest) =
      some (.expressions t es, rest) := by
  simp only [readTypedExpressions, writeElementItems, List.append_assoc, readValType_write t,
    Option.bind_eq_bind, Option.bind_some]
  exact readAs_of_read _ (readConstExpr_write.vector es rest)

theorem readPlaced_write {items : Reader ElementItems} {is : ElementItems} {bytes rest : List UInt8}
    (h : items (bytes ++ rest) = some (is, rest)) (p : Placement) :
    readPlaced readPlacement items (writePlacement p ++ bytes ++ rest) =
      some (⟨.active p, is⟩, rest) := by
  simp only [readPlaced, List.append_assoc, readPlacement_write p, h, Option.bind_eq_bind,
    Option.bind_some]
  rfl

theorem readElement_write : ReadsBack writeElement readElement := by
  rintro ⟨mode, items⟩ rest
  cases items with
  | functions is =>
    have hitems := readMarkedIndexes_write is rest
    cases mode with
    | passive | declarative => exact (readTagged_cons rfl _).trans (readAs_of_read _ hitems)
    | active p => exact (readTagged_cons rfl _).trans (readPlaced_write hitems p)
  | expressions t es =>
    have hitems := readTypedExpressions_write t es rest
    cases mode with
    | passive | declarative => exact (readTagged_cons rfl _).trans (readAs_of_read _ hitems)
    | active p => exact (readTagged_cons rfl _).trans (readPlaced_write hitems p)

theorem readData_write : ReadsBack writeData readData := by
  rintro ⟨place, bytes⟩ rest
  cases place with
  | none => exact (readTagged_cons rfl _).trans (readAs_of_read _ (readRest_sized bytes rest))
  | some p =>
    have htag : readData (0x02 :: (writePlacement p ++ (sized bytes ++ rest))) =
        readPlacedData readPlacement (writePlacement p ++ (sized bytes ++ rest)) :=
      readTagged_cons rfl _
    simp only [writeData, List.cons_append, List.append_assoc, htag, readPlacedData,
      readPlacement_write p, readRest_sized, Option.bind_eq_bind, Option.bind_some]
    rfl

theorem readRun_write : ReadsBack writeRun readRun := by
  intro r rest
  have ht := readValType_write r.2 rest
  simp only [writeValType, List.cons_append, List.nil_append] at ht
  simp only [readRun, writeRun, List.append_assoc, List.cons_append, List.nil_append,
    readNat_ofNat, ht, Option.bind_eq_bind, Option.bind_some]
  rfl

/-- Runs of locals stand for the locals they were made from. -/
theorem runs_flatMap (ts : List ValType) :
    (runs ts).flatMap (fun r => List.replicate r.1 r.2) = ts := by
  induction ts with
  | nil => rfl
  | cons t ts ih =>
    rw [runs]
    cases hr : runs ts with
    | nil =>
      rw [hr] at ih
      simp only [List.flatMap_nil] at ih
      simp [← ih]
    | cons r rest =>
      obtain ⟨n, u⟩ := r
      rw [hr, List.flatMap_cons] at ih
      by_cases htu : t = u
      · subst htu
        simp only [if_true, List.flatMap_cons, List.replicate_succ, List.cons_append, ih]
      · simp only [if_neg htu, List.flatMap_cons, List.replicate_one, List.cons_append,
          List.nil_append, ih]

theorem readBody_write : ReadsBack writeBody (readSized readFunction) := by
  intro f rest
  refine readSized_sized ?_ rest
  simp only [readFunction, readRun_write.vector (runs f.1), runs_flatMap, Option.bind_eq_bind,
    Option.bind_some]
  rfl

theorem readName_write : ReadsBack writeName readName := by
  intro n rest
  simp only [readName, writeName, List.append_assoc, readNat_ofNat, readString_string n.2,
    Option.bind_eq_bind, Option.bind_some]
  rfl

theorem readLocalNames_write : ReadsBack writeLocalNames readLocalNames := by
  intro l rest
  simp only [readLocalNames, writeLocalNames, List.append_assoc, readNat_ofNat,
    readName_write.vector l.2, Option.bind_eq_bind, Option.bind_some]
  rfl

/-! ### The sections -/

theorem readSection_section (id : UInt8) (content rest : List UInt8) :
    readSection (section_ id content ++ rest) = some ((id, content), rest) :=
  readAs_of_read _ (readRest_sized content rest)

/-- Sections are read back as they were written, one after the other. -/
theorem readAll_writeSections (parts : Sections) :
    readAll readSection (writeSections parts) = some parts := by
  refine readAll_flatMap ?_
  rintro ⟨id, content⟩ _
  exact ⟨List.cons_ne_nil _ _, readSection_section id content⟩

theorem readPreamble_preamble (rest : List UInt8) :
    readPreamble (preamble ++ rest) = some ((), rest) := by
  have h := readBytes_append preamble rest
  have hlen : preamble.length = 8 := rfl
  rw [hlen] at h
  simp only [readPreamble, h, Option.bind_eq_bind, Option.bind_some]
  rfl

/-- A binary is divided into the sections that it was written from. -/
theorem readSections_encode (l : Layout) : readSections l.encode = some l.sections := by
  simp only [readSections, encode, readPreamble_preamble, readAll_writeSections,
    Option.bind_eq_bind, Option.bind_some]

@[simp] theorem present_none (id : UInt8) (slots : List (UInt8 × Option (List UInt8))) :
    present ((id, none) :: slots) = present slots := rfl

@[simp] theorem present_some (id : UInt8) (content : List UInt8)
    (slots : List (UInt8 × Option (List UInt8))) :
    present ((id, some content) :: slots) = (id, content) :: present slots := rfl

/-- The sections that are present are in the order of the slots. -/
theorem present_sublist (slots : List (UInt8 × Option (List UInt8))) :
    ((present slots).map (·.1)).Sublist (slots.map (·.1)) := by
  induction slots with
  | nil => exact .slnil
  | cons slot slots ih =>
    obtain ⟨id, content⟩ := slot
    cases content with
    | none => exact ih.cons id
    | some bytes => exact ih.cons_cons id

theorem lookup_eq_none {parts : Sections} {id : UInt8} (h : id ∉ parts.map (·.1)) :
    parts.lookup id = none := by
  refine List.lookup_eq_none_iff.mpr ?_
  intro part hpart
  have hne : id ≠ part.1 := fun heq => h (heq ▸ List.mem_map_of_mem hpart)
  simpa using hne

/-- Among slots of different numbers, a section is found by its number. -/
theorem lookup_present {slots : List (UInt8 × Option (List UInt8))}
    (hnodup : (slots.map (·.1)).Nodup) {id : UInt8} {content : Option (List UInt8)}
    (hmem : (id, content) ∈ slots) : (present slots).lookup id = content := by
  induction slots with
  | nil => contradiction
  | cons slot slots ih =>
    obtain ⟨key, filled⟩ := slot
    obtain ⟨hnew, hrest⟩ := List.nodup_cons.mp hnodup
    rcases List.mem_cons.mp hmem with heq | hlater
    · obtain ⟨rfl, rfl⟩ := Prod.mk.inj heq
      cases content with
      | some bytes => exact List.lookup_cons_self
      | none => exact lookup_eq_none fun hlater => hnew ((present_sublist slots).subset hlater)
    · have hid : id ∈ slots.map (·.1) := List.mem_map_of_mem hlater
      have hne : id ≠ key := fun heq => hnew (heq ▸ hid)
      cases filled with
      | none => exact ih hrest hlater
      | some bytes =>
        rw [present_some, List.lookup_cons, beq_eq_false_iff_ne.mpr hne]
        exact ih hrest hlater

theorem entries_of_lookup {α : Type} {write : α → List UInt8} {read : Reader α}
    (h : ReadsBack write read) {parts : Sections} {id : UInt8} {xs : List α}
    (hlookup : parts.lookup id = content? write xs) : entries read parts id = some xs := by
  cases xs with
  | nil =>
    have hnone : parts.lookup id = none := hlookup
    simp only [entries, hnone]
  | cons x xs =>
    have hsome : parts.lookup id = some (vector write (x :: xs)) := hlookup
    simp only [entries, hsome, h.vector.whole]

theorem number?_of_lookup {parts : Sections} {id : UInt8} {n : Option Nat}
    (hlookup : parts.lookup id = n.map Leb128.ofNat) : number? parts id = some n := by
  cases n with
  | none =>
    have hnone : parts.lookup id = none := hlookup
    simp only [number?, hnone]
  | some n =>
    have hsome : parts.lookup id = some (Leb128.ofNat n) := hlookup
    simp only [number?, hsome, readNat_readsBack.whole, Option.map_some]

theorem nodup_nameSlots (n : Names) : ((nameSlots n).map (·.1)).Nodup := by
  show [(0x01 : UInt8), 0x02].Nodup
  decide

theorem readNameParts_write (n : Names) :
    readNameParts (writeSections (present (nameSlots n))) = some n := by
  have hlookup {i : Nat} {id : UInt8} {content : Option (List UInt8)}
      (h : (nameSlots n)[i]? = some (id, content)) : (present (nameSlots n)).lookup id = content :=
    lookup_present (nodup_nameSlots n) (List.mem_of_getElem? h)
  have hfunctions := entries_of_lookup readName_write (hlookup (i := 0) rfl)
  have hlocals := entries_of_lookup readLocalNames_write (hlookup (i := 1) rfl)
  simp only [readNameParts, readAll_writeSections, hfunctions, hlocals, Option.bind_eq_bind,
    Option.bind_some]
  rfl

/-! ### Layouts -/

theorem nodup_slots (l : Layout) : (l.slots.map (·.1)).Nodup := by
  show (order ++ [0x00]).Nodup
  decide

theorem lookup_sections {l : Layout} {i : Nat} {id : UInt8} {content : Option (List UInt8)}
    (h : l.slots[i]? = some (id, content)) : l.sections.lookup id = content :=
  lookup_present l.nodup_slots (List.mem_of_getElem? h)

theorem inOrder_sections (l : Layout) : inOrder l.sections = true := by
  have hsublist := (present_sublist l.slots).filter (fun id => decide (id ≠ 0x00))
  have hslots : (l.slots.map (·.1)).filter (fun id => decide (id ≠ 0x00)) = order := by
    show (order ++ [0x00]).filter (fun id => decide (id ≠ 0x00)) = order
    decide
  rw [hslots] at hsublist
  exact List.isSublist_iff_sublist.mpr hsublist

theorem filter_present (slots : List (UInt8 × Option (List UInt8))) :
    (present slots).filter (·.1 = 0x00) = present (slots.filter (·.1 = 0x00)) := by
  induction slots with
  | nil => rfl
  | cons slot slots ih =>
    obtain ⟨id, content⟩ := slot
    by_cases hid : id = 0x00
    · cases content <;> simp [hid, ih]
    · cases content <;> simp [hid, ih]

/-- The only custom section of a layout is that of its names. -/
theorem readNames_sections (l : Layout) : readNames l.sections = some l.names := by
  have hcustom : l.sections.filter (·.1 = 0x00) = present [(0x00, l.names.map writeNames)] :=
    filter_present l.slots
  unfold readNames
  rw [hcustom]
  cases l.names with
  | none => rfl
  | some n =>
    have htitle : readString (writeNames n) =
        some ("name", writeSections (present (nameSlots n))) := readString_string "name" _
    have hall : (present [(0x00, some (writeNames n))]).mapM (fun part => readString part.2) =
        some [("name", writeSections (present (nameSlots n)))] := by
      show [((0x00 : UInt8), writeNames n)].mapM (fun part => readString part.2) = _
      simp only [List.mapM_cons, List.mapM_nil, htitle]
      rfl
    have hnamed (content : List UInt8) : [("name", content)].filter (·.1 = "name") =
        [("name", content)] := rfl
    simp only [Option.map_some, hall, hnamed, readNameParts_write, Option.bind_eq_bind,
      Option.bind_some]
    rfl

/-- Functions are put together from their types and their bodies. -/
theorem zipWith_functions (fs : List FunctionBody) :
    List.zipWith (fun t (b : List ValType × List UInt8) => FunctionBody.mk t b.1 b.2)
      (fs.map (·.type)) (fs.map fun f => (f.locals, f.body)) = fs := by
  rw [List.zipWith_map, List.zipWith_self]
  exact List.map_id fs

theorem ofSections_sections (l : Layout) : ofSections l.sections = some l := by
  have htypes := entries_of_lookup readFuncType_write (lookup_sections (l := l) (i := 0) rfl)
  have himports := entries_of_lookup readImport_write (lookup_sections (l := l) (i := 1) rfl)
  have hdeclared := entries_of_lookup readNat_readsBack (lookup_sections (l := l) (i := 2) rfl)
  have htables := entries_of_lookup readTableType_write (lookup_sections (l := l) (i := 3) rfl)
  have hmemories := entries_of_lookup readSizeRange_write (lookup_sections (l := l) (i := 4) rfl)
  have hglobals := entries_of_lookup readGlobal_write (lookup_sections (l := l) (i := 5) rfl)
  have hexports := entries_of_lookup readExport_write (lookup_sections (l := l) (i := 6) rfl)
  have hstart := number?_of_lookup (lookup_sections (l := l) (i := 7) rfl)
  have helements := entries_of_lookup readElement_write (lookup_sections (l := l) (i := 8) rfl)
  have hcount := number?_of_lookup (lookup_sections (l := l) (i := 9) rfl)
  have hbodies := entries_of_lookup readBody_write (lookup_sections (l := l) (i := 10) rfl)
  have hdata := entries_of_lookup readData_write (lookup_sections (l := l) (i := 11) rfl)
  simp only [ofSections, htypes, himports, hdeclared, htables, hmemories, hglobals, hexports, hstart,
    helements, hcount, hbodies, hdata, readNames_sections, zipWith_functions, List.length_map,
    Option.bind_eq_bind, Option.bind_some]
  rfl

/-- Every layout is read back from its binary. -/
theorem decode_encode (l : Layout) : decode l.encode = some l := by
  simp only [decode, readSections_encode, inOrder_sections, ofSections_sections,
    Option.bind_eq_bind, Option.bind_some]
  rfl

end RuleScan.Layout
