import Microboard.Proofs.Hexadecimal
import Microboard.Proofs.Sm83.Fetching
import Mathlib.Data.List.Nodup

/-!
# Spelling of SM83 instructions

No two instructions are spelled the same at one address. The text of an instruction is looked at in
two steps. Without the figures of its numbers it still tells the operations apart, which is a matter
of some five hundred spellings that are compared once and for all. And once the operation is known,
the figures give back what the operation takes from the bytes after its opcode.

- **§1** Texts without their figures.
- **§2** The spellings of the two opcode pages.
- **§3** What the figures give back.
- **§4** The text of an instruction determines the instruction.
-/

namespace Microboard.Sm83

open Hex (isFigure)

/-! ## §1 Outlines -/

/-- A text without the figures of its numbers, which follow a dollar sign; `inside` tells whether
the text starts in the middle of a number. -/
def outline : (inside : Bool) → List Char → List Char
  | _, [] => []
  | inside, c :: cs =>
    if inside && isFigure c then outline true cs else c :: outline (c == '$') cs

/-- What is no figure separates the text before it from the text after it. -/
theorem outline_append_cons (inside : Bool) (before : List Char) {c : Char}
    (separates : isFigure c = false) (after : List Char) :
    outline inside (before ++ c :: after) =
      outline inside before ++ c :: outline (c == '$') after := by
  induction before generalizing inside with
  | nil => simp [outline, separates]
  | cons first before ih =>
    simp only [List.cons_append, outline]
    split
    · exact ih true
    · rw [ih, List.cons_append]

theorem outline_figures {figures : List Char} (all : ∀ c ∈ figures, isFigure c = true)
    (after : List Char) : outline true (figures ++ after) = outline true after := by
  induction figures with
  | nil => rfl
  | cons c figures ih =>
    obtain ⟨first, rest⟩ := List.forall_mem_cons.mp all
    simp only [List.cons_append, outline, first, Bool.and_true, if_true, ih rest]

/-- The outline of a number does not depend on the number. -/
theorem outline_upper (width value : Nat) (after : List Char) :
    outline true ((Hex.upper width value).toList ++ after) = outline true after :=
  outline_figures (fun _ member => Hex.isFigure_of_mem_upper member) after

theorem outline_upper_last (width value : Nat) :
    outline true (Hex.upper width value).toList = [] := by
  have whole := outline_upper width value []
  rwa [List.append_nil] at whole

/-! ## §2 Spellings -/

/-- Mnemonic and operands without the numbers that come after the opcode. The number of a vector,
and that of a byte without a meaning, belong to the opcode. -/
def spelling (text : String × String) : List Char :=
  text.1.toList ++ ' ' ::
    if text.1 = "RST" ∨ text.1 = "DB" then text.2.toList else outline false text.2.toList

/-- Whether two bytes are signed numbers of the same sign. -/
def SameSign (a b : UInt8) : Prop := a < 0x80 ↔ b < 0x80

/-- What stands after the opcode changes the spelling of an instruction only by the sign of an
offset. -/
theorem spelling_assemblerText (pc pc' : UInt32) (opcode : UInt8) {next next' : UInt8}
    (word word' : UInt16) {op : Op}
    (signs : op = .addSp ∨ op = .loadHlSp → SameSign next next') :
    spelling (assemblerText pc opcode next word op) =
      spelling (assemblerText pc' opcode next' word' op) := by
  have comma : isFigure ',' = false := by decide
  cases op with
  | loadPair | loadImmediate | jrIf | jpIf | callIf =>
    simp [spelling, assemblerText, operandsText, wordText, byteText, outline_append_cons, comma,
      outline, outline_upper_last]
  | storeSp | jr | jp | call | storeHigh | loadHigh | storeAbsolute | loadAbsolute =>
    simp [spelling, assemblerText, operandsText, memoryText, highText, wordText, outline,
      outline_upper, outline_upper_last, isFigure]
  | aluImmediate op =>
    cases op <;>
      simp [spelling, assemblerText, operandsText, byteText, outline, outline_upper_last,
        AluOp.mnemonic, isFigure]
  | addSp | loadHlSp =>
    have same : next < 0x80 ↔ next' < 0x80 := signs (by simp)
    by_cases low : next' < 0x80 <;>
      simp [spelling, assemblerText, operandsText, signedText, byteText, same, low, outline,
        outline_upper_last, isFigure]
  | _ => rfl

/-- A property of all bytes can be looked up. -/
theorem forall_byte {P : UInt8 → Prop} (all : ∀ n < 256, P (UInt8.ofNat n)) (byte : UInt8) :
    P byte := by
  rw [← UInt8.ofNat_toNat (x := byte)]
  exact all byte.toNat byte.toNat_lt

/-- Part of the byte after the opcode that shows in the spelling: all of it selects an operation of
the second page, and of an offset to the stack pointer it is the sign. -/
def spelledPart (opcode next : UInt8) : UInt8 :=
  if opcode = 0xCB then next
  else if opcode = 0xE8 ∨ opcode = 0xF8 then next &&& 0x80
  else 0

/-- The spelling that an opcode and part of the byte after it lead to. -/
def spellingOf (selector : UInt8 × UInt8) : List Char :=
  spelling (assemblerText 0 selector.1 selector.2 0 (decodeBytes selector.1 selector.2))

/-- The opcodes after which more than a figure depends on the next byte. -/
theorem decode_spelled (opcode : UInt8) :
    (decode opcode = .addSp → opcode = 0xE8) ∧ (decode opcode = .loadHlSp → opcode = 0xF8) ∧
      (decode opcode = .secondPage → opcode = 0xCB) := by
  revert opcode
  apply forall_byte
  decide +kernel

/-- The operation does not depend on what the spelling does not show. -/
theorem decodeBytes_spelledPart (opcode next : UInt8) :
    decodeBytes opcode (spelledPart opcode next) = decodeBytes opcode next := by
  unfold spelledPart
  split
  · rfl
  next first =>
    have page : decode opcode ≠ .secondPage := fun second =>
      first ((decode_spelled opcode).2.2 second)
    rw [decodeBytes_first page, decodeBytes_first page]

/-- The topmost bit of a byte is its sign. -/
theorem sameSign_and (byte : UInt8) :
    SameSign byte (byte &&& 0x80) ∧ (byte &&& 0x80 = 0 ∨ byte &&& 0x80 = 0x80) := by
  revert byte
  apply forall_byte
  unfold SameSign
  decide +kernel

/-- The sign of an offset is spelled. -/
theorem sameSign_spelledPart {opcode next : UInt8}
    (signed : decodeBytes opcode next = .addSp ∨ decodeBytes opcode next = .loadHlSp) :
    SameSign next (spelledPart opcode next) := by
  have plain : decodeBytes opcode next = decode opcode := by
    apply decodeBytes_first
    intro second
    rw [decodeBytes_second second] at signed
    unfold decodeSecond at signed
    split at signed <;> simp at signed
  rw [plain] at signed
  obtain ⟨add, load, -⟩ := decode_spelled opcode
  have opcodes : opcode = 0xE8 ∨ opcode = 0xF8 := signed.imp add load
  unfold spelledPart
  rw [if_neg (by rcases opcodes with rfl | rfl <;> decide), if_pos opcodes]
  exact (sameSign_and next).1

/-- The spelling of an instruction at any address. -/
theorem spelling_decodeBytes (pc : UInt32) (opcode next : UInt8) (word : UInt16) :
    spelling (assemblerText pc opcode next word (decodeBytes opcode next)) =
      spellingOf (opcode, spelledPart opcode next) := by
  unfold spellingOf
  rw [decodeBytes_spelledPart]
  exact spelling_assemblerText _ _ _ _ _ sameSign_spelledPart

/-- All opcodes of both pages, with the sign of an offset where there is one. -/
def selectors : List (UInt8 × UInt8) :=
  ((List.range 256).filter (· != 0xCB)).map (fun opcode => (UInt8.ofNat opcode, 0)) ++
    ((List.range 256).map (fun opcode => (0xCB, UInt8.ofNat opcode)) ++
      [(0xE8, 0x80), (0xF8, 0x80)])

theorem mem_selectors (opcode next : UInt8) :
    (opcode, spelledPart opcode next) ∈ selectors := by
  unfold spelledPart selectors
  split
  next second =>
    subst second
    refine List.mem_append_right _ (List.mem_append_left _ (List.mem_map.mpr ?_))
    exact ⟨next.toNat, List.mem_range.mpr next.toNat_lt, by rw [UInt8.ofNat_toNat]⟩
  next first =>
    have plain : (opcode, 0) ∈ ((List.range 256).filter (· != 0xCB)).map
        (fun opcode => ((UInt8.ofNat opcode, 0) : UInt8 × UInt8)) := by
      refine List.mem_map.mpr ⟨opcode.toNat, ?_, by rw [UInt8.ofNat_toNat]⟩
      refine List.mem_filter.mpr ⟨List.mem_range.mpr opcode.toNat_lt, ?_⟩
      rw [bne_iff_ne]
      exact fun same => first (UInt8.toNat_inj.mp same)
    split
    next signed =>
      rcases (sameSign_and next).2 with positive | negative
      · rw [positive]
        exact List.mem_append_left _ plain
      · rw [negative]
        rcases signed with rfl | rfl <;> simp
    · exact List.mem_append_left _ plain

/-- A number for a text; the modulus is such that no two spellings share a number. -/
def label (text : List Char) : Nat := text.foldl (fun n c => n * 128 + c.toNat) 0 % 10293

/-- Whether the labels differ from each other and from those that were seen before. -/
def allNew : (seen : Nat) → (labels : List Nat) → Bool
  | _, [] => true
  | seen, label :: labels => !seen.testBit label && allNew (seen ||| 1 <<< label) labels

theorem nodup_of_allNew {labels : List Nat} (seen : Nat) (new : allNew seen labels = true) :
    labels.Nodup ∧ ∀ label ∈ labels, seen.testBit label = false := by
  induction labels generalizing seen with
  | nil => simp
  | cons first labels ih =>
    simp only [allNew, Bool.and_eq_true, Bool.not_eq_true'] at new
    obtain ⟨fresh, rest⟩ := new
    obtain ⟨apart, unseen⟩ := ih _ rest
    simp only [Nat.testBit_or, Bool.or_eq_false_iff] at unseen
    constructor
    · refine List.nodup_cons.mpr ⟨fun again => ?_, apart⟩
      have marked := (unseen first again).2
      simp [Nat.testBit_shiftLeft] at marked
    · exact List.forall_mem_cons.mpr ⟨fresh, fun label member => (unseen label member).1⟩

/-- The labels are compared through the bits of one number: five hundred texts make too many pairs
to go through. -/
theorem nodup_labels : (selectors.map fun selector => label (spellingOf selector)).Nodup :=
  (nodup_of_allNew 0 (by decide +kernel)).1

/-- Different opcodes are spelled differently. -/
theorem spellingOf_inj {a b : UInt8 × UInt8} (there : a ∈ selectors) (there' : b ∈ selectors)
    (same : spellingOf a = spellingOf b) : a = b :=
  List.inj_on_of_nodup_map nodup_labels there there' (congrArg label same)

/-! ## §3 Figures -/

@[simp]
theorem byteText_inj {a b : UInt8} : byteText a = byteText b ↔ a = b := by
  unfold byteText
  rw [String.append_right_inj]
  exact ⟨fun same => UInt8.toNat_inj.mp (Hex.upper_inj same), fun same => by rw [same]⟩

@[simp]
theorem wordText_inj {a b : UInt16} : wordText a = wordText b ↔ a = b := by
  unfold wordText
  rw [String.append_right_inj]
  exact ⟨fun same => UInt16.toNat_inj.mp (Hex.upper_inj same), fun same => by rw [same]⟩

@[simp]
theorem memoryText_inj {a b : String} : memoryText a = memoryText b ↔ a = b := by
  simp [memoryText]

@[simp]
theorem highText_inj {a b : UInt8} : highText a = highText b ↔ a = b := by
  unfold highText
  rw [memoryText_inj, String.append_right_inj]
  exact ⟨fun same => UInt8.toNat_inj.mp (Hex.upper_inj same), fun same => by rw [same]⟩

@[simp]
theorem signedText_inj {a b : UInt8} : signedText a = signedText b ↔ a = b := by
  refine ⟨fun same => ?_, fun same => by rw [same]⟩
  -- texts of different signs begin differently
  have signs (x y : String) : "+" ++ x ≠ "-" ++ y := by
    intro same
    have first := congrArg String.toList same
    simp at first
  unfold signedText at same
  split at same <;> split at same
  · exact byteText_inj.mp ((String.append_right_inj _).mp same)
  · exact absurd same (signs _ _)
  · exact absurd same.symm (signs _ _)
  · exact (UInt8.sub_right_inj _).mp (byteText_inj.mp ((String.append_right_inj _).mp same))

@[simp]
theorem operandsText_right_inj {left a b : String} :
    operandsText left a = operandsText left b ↔ a = b := by
  simp [operandsText]

@[simp]
theorem operandsText_left_inj {right a b : String} :
    operandsText a right = operandsText b right ↔ a = b := by
  simp [operandsText]

theorem lowByte_signExtend (byte : UInt8) : lowByte (signExtend byte) = byte := by
  unfold signExtend
  split
  · simp [lowByte]
  · exact lowByte_joinBytes ..

/-- From one address, different offsets lead to different targets. -/
@[simp]
theorem relativeTarget_inj {pc : UInt32} {a b : UInt8} :
    relativeTarget pc a = relativeTarget pc b ↔ a = b := by
  refine ⟨fun same => ?_, fun same => by rw [same]⟩
  have extended : signExtend a = signExtend b := (UInt16.add_right_inj _).mp same
  rw [← lowByte_signExtend a, extended, lowByte_signExtend]

/-- The operands show what the operation takes from the bytes after the opcode, except for the byte
that `STOP` passes over. -/
theorem operand_of_text {pc : UInt32} {opcode next next' : UInt8} {word word' : UInt16} {op : Op}
    (same : (assemblerText pc opcode next word op).2 =
      (assemblerText pc opcode next' word' op).2) :
    (op.operands = 1 → op ≠ .stop → next = next') ∧ (op.operands = 2 → word = word') := by
  cases op with
  | loadPair | storeSp | jp | jpIf | call | callIf | storeAbsolute | loadAbsolute =>
    exact ⟨nofun, fun _ => by simpa [assemblerText] using same⟩
  | jr | jrIf | loadImmediate | aluImmediate | storeHigh | loadHigh | addSp | loadHlSp =>
    exact ⟨fun _ _ => by simpa [assemblerText] using same, nofun⟩
  | stop => exact ⟨fun _ runs => absurd rfl runs, nofun⟩
  | _ => exact ⟨nofun, nofun⟩

/-! ## §4 Texts and instructions -/

/-- Where the operation branches to, if it is a branch whose text names its target. -/
def Op.target? (pc : UInt32) (next : UInt8) (word : UInt16) : Op → Option UInt16
  | .jr | .jrIf _ => some (relativeTarget pc next)
  | .jp | .jpIf _ | .call | .callIf _ => some word
  | .rst vector => some vector.toUInt16
  | _ => none

/-- The word after the opcode. -/
def wordAfter (bytes : List UInt8) : UInt16 := joinBytes (bytes.getD 2 0) (bytes.getD 1 0)

/-- Instructions with one text have one opcode, one operation and one operand. -/
theorem selected_of_text {pc : UInt32} {bytes bytes' : List UInt8}
    (mnemonic : (disassemble pc bytes).mnemonic = (disassemble pc bytes').mnemonic)
    (operands : (disassemble pc bytes).operands = (disassemble pc bytes').operands) :
    bytes.getD 0 0 = bytes'.getD 0 0 ∧ operation bytes = operation bytes' ∧
      (decode (bytes.getD 0 0) = .secondPage → bytes.getD 1 0 = bytes'.getD 1 0) ∧
      ((operation bytes).operands = 1 → operation bytes ≠ .stop →
        bytes.getD 1 0 = bytes'.getD 1 0) ∧
      ((operation bytes).operands = 2 → wordAfter bytes = wordAfter bytes') := by
  have same : assemblerText pc (bytes.getD 0 0) (bytes.getD 1 0) (wordAfter bytes)
      (operation bytes) = assemblerText pc (bytes'.getD 0 0) (bytes'.getD 1 0) (wordAfter bytes')
        (operation bytes') := Prod.ext mnemonic operands
  unfold operation at *
  generalize bytes.getD 0 0 = opcode, bytes'.getD 0 0 = opcode' at *
  generalize bytes.getD 1 0 = next, bytes'.getD 1 0 = next' at *
  have spelled : spellingOf (opcode, spelledPart opcode next) =
      spellingOf (opcode', spelledPart opcode' next') := by
    rw [← spelling_decodeBytes pc, ← spelling_decodeBytes pc, same]
  obtain ⟨rfl, part⟩ := Prod.mk.inj
    (spellingOf_inj (mem_selectors opcode next) (mem_selectors opcode' next') spelled)
  have op : decodeBytes opcode next = decodeBytes opcode next' := by
    rw [← decodeBytes_spelledPart, part, decodeBytes_spelledPart]
  rw [← op] at same
  refine ⟨rfl, op, fun second => ?_, operand_of_text (congrArg Prod.snd same)⟩
  have page := (decode_spelled opcode).2.2 second
  simpa [spelledPart, page] using part

theorem decode_stop (opcode : UInt8) : decode opcode = .stop → opcode = 0x10 := by
  revert opcode
  apply forall_byte
  decide +kernel

/-- The row of a `STOP` shows its opcode and the byte that it passes over. -/
theorem bytes_stop (pc : UInt32) {bytes : List UInt8} (stops : operation bytes = .stop) :
    (disassemble pc bytes).bytes = [0x10, bytes.getD 1 0] := by
  have opcode : bytes.getD 0 0 = 0x10 := by
    unfold operation at stops
    by_cases second : decode (bytes.getD 0 0) = .secondPage
    · rw [decodeBytes_second second] at stops
      unfold decodeSecond at stops
      split at stops <;> simp at stops
    · rw [decodeBytes_first second] at stops
      exact decode_stop _ stops
  show (List.range (operation bytes).length).map (bytes.getD · 0) = _
  rw [stops, ← opcode]
  rfl

/-- An instruction is as long as its opcode, the opcode on the second page if there is one, and its
operand. -/
theorem length_operation (bytes : List UInt8) :
    (operation bytes).length =
      if decode (bytes.getD 0 0) = .secondPage then 2 else (operation bytes).operands + 1 := by
  unfold operation
  split
  next second =>
    rw [decodeBytes_second second]
    exact (decodeSecond_alone _).1
  next first =>
    rw [decodeBytes_first first]
    have whole := length_decode (bytes.getD 0 0).toNat (bytes.getD 0 0).toNat_lt
    rw [UInt8.ofNat_toNat] at whole
    exact whole first

theorem wordAfter_inj {bytes bytes' : List UInt8} (same : wordAfter bytes = wordAfter bytes') :
    bytes.getD 1 0 = bytes'.getD 1 0 ∧ bytes.getD 2 0 = bytes'.getD 2 0 := by
  have low := congrArg lowByte same
  have high := congrArg highByte same
  unfold wordAfter at low high
  rw [lowByte_joinBytes, lowByte_joinBytes] at low
  rw [highByte_joinBytes, highByte_joinBytes] at high
  exact ⟨low, high⟩

/-- The text of an instruction determines every byte of its row, unless it is a `STOP`. -/
theorem bytes_of_text {pc : UInt32} {bytes bytes' : List UInt8}
    (mnemonic : (disassemble pc bytes).mnemonic = (disassemble pc bytes').mnemonic)
    (operands : (disassemble pc bytes).operands = (disassemble pc bytes').operands)
    (runs : operation bytes ≠ .stop) :
    (disassemble pc bytes).bytes = (disassemble pc bytes').bytes := by
  obtain ⟨opcode, op, second, byte, word⟩ := selected_of_text mnemonic operands
  have length := length_operation bytes
  have most := (operation bytes).length_range.2
  show (List.range (operation bytes).length).map (bytes.getD · 0) =
    (List.range (operation bytes').length).map (bytes'.getD · 0)
  rw [← op]
  apply List.map_congr_left
  intro index within
  have below := List.mem_range.mp within
  by_cases page : decode (bytes.getD 0 0) = .secondPage
  · rw [if_pos page] at length
    rcases index with _ | _ | index
    · exact opcode
    · exact second page
    · omega
  · rw [if_neg page] at length
    rcases index with _ | _ | _ | index
    · exact opcode
    · -- the second byte is the operand or the lower half of it
      rcases Nat.lt_or_ge 1 (operation bytes).operands with two | one
      · exact (wordAfter_inj (word (by omega))).1
      · exact byte (by omega) runs
    · exact (wordAfter_inj (word (by omega))).2
    · omega

/-- The text of an instruction at an address determines the instruction: byte strings whose
disassembly has the same mnemonic and the same operands begin with the same operation, with the same
operand and the same branch target, and their rows show the same bytes. Only `STOP`, whose second
byte is not printed, can differ in that byte. -/
theorem disassemble_determines (pc : UInt32) (bytes bytes' : List UInt8)
    (mnemonic : (disassemble pc bytes).mnemonic = (disassemble pc bytes').mnemonic)
    (operands : (disassemble pc bytes).operands = (disassemble pc bytes').operands) :
    operation bytes = operation bytes' ∧
      (operation bytes ≠ .stop → (disassemble pc bytes).bytes = (disassemble pc bytes').bytes) ∧
      (operation bytes = .stop → (disassemble pc bytes).bytes = [0x10, bytes.getD 1 0] ∧
        (disassemble pc bytes').bytes = [0x10, bytes'.getD 1 0]) ∧
      ((operation bytes).operands = 1 → operation bytes ≠ .stop →
        bytes.getD 1 0 = bytes'.getD 1 0) ∧
      ((operation bytes).operands = 2 → wordAfter bytes = wordAfter bytes') ∧
      (operation bytes).target? pc (bytes.getD 1 0) (wordAfter bytes) =
        (operation bytes').target? pc (bytes'.getD 1 0) (wordAfter bytes') := by
  obtain ⟨-, op, -, byte, word⟩ := selected_of_text mnemonic operands
  refine ⟨op, bytes_of_text mnemonic operands, fun stops => ?_, byte, word, ?_⟩
  · exact ⟨bytes_stop pc stops, bytes_stop pc (op ▸ stops)⟩
  · rw [← op]
    cases selected : operation bytes with
    | jr | jrIf =>
      rw [selected] at byte
      simp only [Op.target?, byte rfl nofun]
    | jp | jpIf | call | callIf =>
      rw [selected] at word
      simp only [Op.target?, word rfl]
    | _ => rfl

/-- A relative jump that is spelled the same has the same offset, whatever follows it; two `STOP`
instructions are spelled the same although they differ. -/
theorem disassemble_determines_jump :
    (disassemble 0x150 [0x18, 0xFE, 0x00]).operands = "$0150" ∧
      (disassemble 0x150 [0x18, 0xFE, 0x00]).bytes =
        (disassemble 0x150 [0x18, 0xFE, 0x77]).bytes ∧
      (disassemble 0x150 [0x10, 0x00, 0x00]).mnemonic =
        (disassemble 0x150 [0x10, 0x01, 0x00]).mnemonic ∧
      (disassemble 0x150 [0x10, 0x00, 0x00]).bytes = [0x10, 0x00] ∧
      (disassemble 0x150 [0x10, 0x01, 0x00]).bytes = [0x10, 0x01] := by
  refine ⟨by decide +kernel, ?_, by decide +kernel, ?_⟩
  · exact (disassemble_determines 0x150 [0x18, 0xFE, 0x00] [0x18, 0xFE, 0x77] (by decide +kernel)
      (by decide +kernel)).2.1 (by decide +kernel)
  · exact (disassemble_determines 0x150 [0x10, 0x00, 0x00] [0x10, 0x01, 0x00] (by decide +kernel)
      (by decide +kernel)).2.2.1 (by decide +kernel)

end Microboard.Sm83
