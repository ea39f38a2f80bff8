import Mathlib.Data.List.Basic
import Chip8.Machine
import Chip8.Proofs.Keys
import Chip8.Proofs.Readings

/-!
The dump of a machine tells what it shows. A text is cut at a mark if what stands before the mark
does not hold the mark's first character (`Text.append_mark_inj`), and texts that are joined with a
separator are told apart if none of them is empty or holds it (`Text.intercalate_inj`). The numerals
in a dump hold none of the characters that stand around them, so a dump is cut into its lines, the
lines into numerals, and the numerals give the numbers back, however many places they have
(`Machine.counterLine_inj`, `registerLine_inj`, `holdingLine_inj`). Two machines have the same dump
exactly if they agree in the counters, the timers, the registers, the stack and the keypad
(`Machine.dump_eq_dump_iff`).
-/

namespace Chip8

namespace Text

variable {separator : Char} {texts others : List String}

/-! ### Texts around marks -/

/-- A mark cuts characters in two where it is not among those before it. -/
theorem append_cons_inj {c : Char} {cs ds rest rest' : List Char} (plain : c ∉ cs)
    (plain' : c ∉ ds) : cs ++ c :: rest = ds ++ c :: rest' ↔ cs = ds ∧ rest = rest' := by
  induction cs generalizing ds with
  | nil =>
      cases ds with
      | nil => simp
      | cons d more => simp [List.ne_of_not_mem_cons plain']
  | cons b before ih =>
      cases ds with
      | nil => simp [(List.ne_of_not_mem_cons plain).symm]
      | cons d more =>
          simp only [List.cons_append, List.cons.injEq, and_assoc,
            ih (List.not_mem_of_not_mem_cons plain) (List.not_mem_of_not_mem_cons plain')]

/-- A mark cuts a text in two where the text before it does not hold the mark's first character. -/
theorem append_mark_inj {first first' rest rest' : String} {c : Char} {more : List Char}
    (mark : String) (starts : mark.toList = c :: more) (plain : c ∉ first.toList)
    (plain' : c ∉ first'.toList) :
    first ++ (mark ++ rest) = first' ++ (mark ++ rest') ↔ first = first' ∧ rest = rest' := by
  simp only [← String.toList_inj, String.toList_append, starts, List.cons_append]
  rw [append_cons_inj plain plain', List.append_right_inj]

/-! ### Joined texts -/

theorem toList_intercalate {mark : String} (single : mark.toList = [separator]) :
    (mark.intercalate texts).toList = joined separator (texts.map String.toList) := by
  rw [String.toList_intercalate, single]
  generalize texts.map String.toList = parts
  induction parts with
  | nil => rfl
  | cons part rest ih =>
      cases rest with
      | nil => exact List.intercalate_singleton
      | cons next others =>
          rw [List.intercalate_cons_cons, ih, joined, List.append_assoc, List.singleton_append]

/-- A character other than the separator stands in a joined text only if it stands in a part. -/
theorem not_mem_intercalate {mark : String} {c : Char} (single : mark.toList = [separator])
    (other : c ≠ separator) (plain : ∀ text ∈ texts, c ∉ text.toList) :
    c ∉ (mark.intercalate texts).toList := by
  intro mem
  rw [toList_intercalate single] at mem
  rcases mem_joined mem with same | ⟨part, inside, found⟩
  · exact other same
  · obtain ⟨text, given, rfl⟩ := List.mem_map.mp inside
    exact plain text given found

/-- Can a text stand in a list that is written with a separator? It is not empty and does not hold
the separator. -/
def Entry (separator : Char) (text : String) : Prop :=
  text ≠ "" ∧ separator ∉ text.toList

/-- The texts of a list that is written with a separator; an empty text is that of no list but the
empty one. -/
def entries (separator : Char) (cs : List Char) : List (List Char) :=
  if cs = [] then [] else pieces separator cs

theorem entries_intercalate {mark : String} (single : mark.toList = [separator])
    (written : ∀ text ∈ texts, Entry separator text) :
    entries separator (mark.intercalate texts).toList = texts.map String.toList := by
  have plain : ∀ part ∈ texts.map String.toList, separator ∉ part :=
    List.forall_mem_map.mpr fun text mem => (written text mem).2
  rw [toList_intercalate single]
  cases texts with
  | nil => rfl
  | cons text rest =>
      have cut := pieces_joined plain (by simp)
      have some : joined separator ((text :: rest).map String.toList) ≠ [] := by
        intro none
        rw [none] at cut
        -- Nothing is cut into one empty text.
        have empty : text.toList = [] := (List.cons.inj cut).1.symm
        exact (written text List.mem_cons_self).1 (String.toList_eq_nil_iff.mp empty)
      rw [entries, if_neg some, cut]

/-- Lists that are written with a separator are told apart by their texts. -/
theorem intercalate_inj {mark : String} (single : mark.toList = [separator])
    (written : ∀ text ∈ texts, Entry separator text)
    (written' : ∀ text ∈ others, Entry separator text) :
    mark.intercalate texts = mark.intercalate others ↔ texts = others := by
  refine ⟨fun same => ?_, congrArg _⟩
  have read := entries_intercalate single written
  rw [same, entries_intercalate single written'] at read
  exact (List.map_injective_iff.mpr fun _ _ => String.toList_injective) read.symm

end Text

namespace Numeral

variable {width : Nat} {n : Int} {c : Char}

/-- What is no digit and no dash is not in a numeral. -/
theorem not_mem_hex (foreign : c ∉ '-' :: digits) : c ∉ (hex width n).toList :=
  fun mem => foreign (mem_hex_int mem)

theorem hex_ne_empty (width : Nat) (n : Int) : hex width n ≠ "" := by
  rw [Ne, ← String.toList_eq_nil_iff]
  cases n with
  | ofNat n =>
      change (hex width n).toList ≠ []
      rw [toList_hex]
      simp [hexDigits]
  | negSucc n => simp [toList_hex_negSucc]

theorem entry_hex (foreign : c ∉ '-' :: digits) : Text.Entry c (hex width n) :=
  ⟨hex_ne_empty width n, not_mem_hex foreign⟩

end Numeral

namespace Keypad

variable {keypad keypad' : Keypad}

/-- A keypad is known from its held keys. -/
theorem pressed_inj : keypad.pressed = keypad'.pressed ↔ keypad = keypad' := by
  refine ⟨fun same => eq_of_holds fun code => ?_, congrArg pressed⟩
  rw [Holds, Holds, same]

/-- Keypads are told apart by their texts. -/
theorem text_inj : keypad.text = keypad'.text ↔ keypad = keypad' := by
  have written : ∀ keypad : Keypad, ∀ text ∈ keypad.pressed.map Key.text, Text.Entry ',' text :=
    fun _ => List.forall_mem_map.mpr fun _ _ => Numeral.entry_hex (by decide)
  have key_inj : ∀ key other : Key, key.text = other.text → key = other := by
    intro key other same
    exact Fin.ext (Int.ofNat_inj.mp (Numeral.hex_inj.mp same))
  rw [text, text, String.append_left_inj, String.append_right_inj,
    Text.intercalate_inj rfl (written keypad) (written keypad'), List.map_inj_right key_inj,
    pressed_inj]

end Keypad

namespace Machine

variable {m m' : Machine}

/-! ### The lines of a dump -/

/-- The first line: the counters and the timers. -/
def counterLine (m : Machine) : String :=
  "PC=" ++ Numeral.hex 3 m.pc ++ " I=" ++ Numeral.hex 4 m.index ++ " DT=" ++ toString m.delay ++
    " ST=" ++ toString m.sound

/-- The second line: the registers. -/
def registerLine (m : Machine) : String :=
  " ".intercalate ((List.finRange 16).map fun r => registerEntry r (m.registers.get r))

/-- The third line: the stack and the held keys. -/
def holdingLine (m : Machine) : String :=
  "STACK: [" ++ " ".intercalate (m.stack.reverse.map (Numeral.hex 3)) ++ "] KEYS: " ++
    m.keypad.text

theorem dump_eq_lines (m : Machine) :
    m.dump = m.counterLine ++ ("\n" ++ (m.registerLine ++ ("\n" ++ m.holdingLine))) := by
  unfold dump counterLine registerLine holdingLine
  simp only [String.append_assoc]

theorem counterLine_inj :
    m.counterLine = m'.counterLine ↔
      m.pc = m'.pc ∧ m.index = m'.index ∧ m.delay = m'.delay ∧ m.sound = m'.sound := by
  have hex : ∀ width n, ' ' ∉ (Numeral.hex width n).toList :=
    fun _ _ => Numeral.not_mem_hex (by decide)
  have decimal : ∀ n : Int, ' ' ∉ (toString n).toList :=
    fun _ mem => absurd (Text.mem_toString mem) (by decide)
  simp only [counterLine, String.append_assoc]
  rw [String.append_right_inj, Text.append_mark_inj " I=" rfl (hex 3 _) (hex 3 _),
    Text.append_mark_inj " DT=" rfl (hex 4 _) (hex 4 _),
    Text.append_mark_inj " ST=" rfl (decimal _) (decimal _),
    Numeral.hex_inj, Numeral.hex_inj, Text.toString_inj, Text.toString_inj]

theorem newline_not_mem_counterLine (m : Machine) : '\n' ∉ m.counterLine.toList := by
  have hex : ∀ width n, '\n' ∉ (Numeral.hex width n).toList :=
    fun _ _ => Numeral.not_mem_hex (by decide)
  have decimal : ∀ n : Int, '\n' ∉ (toString n).toList :=
    fun _ mem => absurd (Text.mem_toString mem) (by decide)
  simp only [counterLine, String.toList_append, List.mem_append, hex, decimal, or_false]
  decide

/-- A register is written without blanks and line breaks. -/
theorem not_mem_registerEntry {c : Char} (foreign : c ∉ 'V' :: '=' :: '-' :: Numeral.digits)
    (r : Register) (value : Int) : c ∉ (registerEntry r value).toList := by
  simp only [List.mem_cons, not_or] at foreign
  have hex : ∀ width n, c ∉ (Numeral.hex width n).toList :=
    fun _ _ => Numeral.not_mem_hex (by simpa using foreign.2.2)
  simp [registerEntry, hex, foreign]

theorem registerEntry_inj {r : Register} {value value' : Int} :
    registerEntry r value = registerEntry r value' ↔ value = value' := by
  rw [registerEntry, registerEntry, String.append_right_inj, Numeral.hex_inj]

theorem entry_registerEntry (r : Register) (value : Int) :
    Text.Entry ' ' (registerEntry r value) := by
  refine ⟨?_, not_mem_registerEntry (by decide) r value⟩
  simp [registerEntry]

theorem registerLine_inj : m.registerLine = m'.registerLine ↔ m.registers = m'.registers := by
  have written : ∀ m : Machine,
      ∀ text ∈ (List.finRange 16).map fun r => registerEntry r (m.registers.get r),
        Text.Entry ' ' text :=
    fun _ => List.forall_mem_map.mpr fun r _ => entry_registerEntry r _
  rw [registerLine, registerLine, Text.intercalate_inj rfl (written m) (written m'),
    List.map_inj_left]
  simp only [registerEntry_inj, List.mem_finRange, forall_const]
  exact ⟨fun same => Vector.ext fun i inside => same ⟨i, inside⟩, fun same r => by rw [same]⟩

theorem newline_not_mem_registerLine (m : Machine) : '\n' ∉ m.registerLine.toList := by
  have entries : ∀ text ∈ (List.finRange 16).map fun r => registerEntry r (m.registers.get r),
      '\n' ∉ text.toList :=
    List.forall_mem_map.mpr fun r _ => not_mem_registerEntry (by decide) r _
  exact Text.not_mem_intercalate (rfl : " ".toList = [' ']) (by decide) entries

theorem holdingLine_inj :
    m.holdingLine = m'.holdingLine ↔ m.stack = m'.stack ∧ m.keypad = m'.keypad := by
  have written : ∀ m : Machine,
      ∀ text ∈ m.stack.reverse.map (Numeral.hex 3), Text.Entry ' ' text :=
    fun _ => List.forall_mem_map.mpr fun _ _ => Numeral.entry_hex (by decide)
  have closed : ∀ m : Machine,
      ']' ∉ (" ".intercalate (m.stack.reverse.map (Numeral.hex 3))).toList := fun _ =>
    Text.not_mem_intercalate rfl (by decide)
      (List.forall_mem_map.mpr fun _ _ => Numeral.not_mem_hex (by decide))
  simp only [holdingLine, String.append_assoc]
  rw [String.append_right_inj, Text.append_mark_inj "] KEYS: " rfl (closed m) (closed m'),
    Text.intercalate_inj rfl (written m) (written m'), Keypad.text_inj,
    List.map_inj_right fun _ _ => Numeral.hex_inj.mp, List.reverse_inj]

/-! ### Dumps -/

/-- A dump determines the state that it shows, in every state that a machine can be put into: two
machines have the same dump exactly if they have the same counters, timers, registers, return
addresses in the same order, and held keys. -/
theorem dump_eq_dump_iff (m m' : Machine) :
    m.dump = m'.dump ↔
      m.pc = m'.pc ∧ m.index = m'.index ∧ m.delay = m'.delay ∧ m.sound = m'.sound ∧
        m.registers = m'.registers ∧ m.stack = m'.stack ∧ m.keypad = m'.keypad := by
  rw [dump_eq_lines, dump_eq_lines,
    Text.append_mark_inj "\n" rfl (newline_not_mem_counterLine m) (newline_not_mem_counterLine m'),
    Text.append_mark_inj "\n" rfl (newline_not_mem_registerLine m)
      (newline_not_mem_registerLine m'),
    counterLine_inj, registerLine_inj, holdingLine_inj]
  simp only [and_assoc]

end Machine

end Chip8
