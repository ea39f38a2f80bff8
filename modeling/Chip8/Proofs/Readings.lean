import Chip8.Text

/-!
Reading back what is written. A hexadecimal numeral has the value of the number that it was written
for, whatever zeros it is padded with (`Numeral.value_hex`), and is written with the sixteen digits
alone (`Numeral.mem_hex`). Below zero a dash comes first, in either notation, and the number is
still read back (`Numeral.signed_hex`, `Text.signed_toString`). A text that is put together from
pieces is cut into the same pieces again, as long as no piece holds the separator
(`Text.pieces_append`, `Text.pieces_joined`).
-/

namespace Chip8

namespace Numeral

def digits : List Char :=
  "0123456789ABCDEF".toList

def digitValue (c : Char) : Nat :=
  digits.idxOf c

/-- The value of digits from high to low. -/
def value (cs : List Char) : Nat :=
  cs.foldl (fun n c => 16 * n + digitValue c) 0

/-- A number is written with one digit, or with the digits of another number and one more. -/
theorem hexDigits_induction {motive : Nat → List Char → Prop}
    (digit : ∀ d < 16, motive d [Nat.digitChar d])
    (further : ∀ n, ∀ d < 16, motive n (hexDigits n) →
      motive (16 * n + d) (hexDigits n ++ [Nat.digitChar d])) (n : Nat) :
    motive n (hexDigits n) := by
  induction n using Nat.strongRecOn with
  | ind n ih =>
      rw [hexDigits, Nat.toDigits_eq_if (by decide)]
      split
      · rename_i small
        exact digit n small
      · rename_i large
        have longer := further (n / 16) (n % 16) (by omega) (ih (n / 16) (by omega))
        rwa [Nat.div_add_mod] at longer

/-- What holds of the sixteen digits holds of every digit of a number. -/
theorem forall_mem_hexDigits {P : Char → Prop} (all : ∀ d < 16, P (Nat.digitChar d)) (n : Nat) :
    ∀ c ∈ hexDigits n, P c := by
  refine hexDigits_induction (motive := fun _ cs => ∀ c ∈ cs, P c) ?_ ?_ n
  · intro d small c mem
    exact List.mem_singleton.mp mem ▸ all d small
  · intro n d small ih c mem
    rcases List.mem_append.mp mem with higher | last
    · exact ih c higher
    · exact List.mem_singleton.mp last ▸ all d small

theorem toList_hex (width n : Nat) :
    (hex width n).toList =
      List.replicate (width - (hexDigits n).length) '0' ++ (hexDigits n).map Char.toUpper := by
  have zero : '0'.toUpper = '0' := by decide
  have chars : hexChars width n = padded width (hexDigits n) := rfl
  rw [hex, String.toList_ofList, chars, padded, List.map_append, List.map_replicate, zero]

/-- A number that is not below zero is written with the sixteen digits alone. -/
theorem mem_hex {width n : Nat} {c : Char} (mem : c ∈ (hex width n).toList) : c ∈ digits := by
  rw [toList_hex, List.mem_append] at mem
  rcases mem with zero | written
  · rw [List.eq_of_mem_replicate zero]
    decide
  · obtain ⟨d, digit, rfl⟩ := List.mem_map.mp written
    exact forall_mem_hexDigits (P := fun c => c.toUpper ∈ digits) (by decide) n d digit

/-! ### Values -/

theorem value_concat (cs : List Char) (c : Char) :
    value (cs ++ [c]) = 16 * value cs + digitValue c := by
  rw [value, List.foldl_append]
  rfl

/-- Zeros in front count for nothing. -/
theorem value_zeros (count : Nat) (cs : List Char) :
    value (List.replicate count '0' ++ cs) = value cs := by
  induction count with
  | zero => rfl
  | succ count ih => exact ih

theorem value_hexDigits (n : Nat) : value ((hexDigits n).map Char.toUpper) = n := by
  have value_digit : ∀ d < 16, digitValue (Nat.digitChar d).toUpper = d := by decide
  refine hexDigits_induction (motive := fun n cs => value (cs.map Char.toUpper) = n) ?_ ?_ n
  · intro d small
    change 16 * 0 + digitValue (Nat.digitChar d).toUpper = d
    rw [value_digit d small]
    omega
  · intro n d small ih
    rw [List.map_append, List.map_singleton, value_concat, ih, value_digit d small]

/-- A numeral has the value that it was written for. -/
theorem value_hex (width n : Nat) : value (hex width n).toList = n := by
  rw [toList_hex, value_zeros, value_hexDigits]

/-! ### Numbers below zero -/

/-- The number that is read from a text which may start with a dash, by a reading of the digits. -/
def signed (reading : List Char → Nat) : List Char → Int
  | '-' :: cs => -(reading cs : Int)
  | cs => reading cs

theorem signed_of_no_dash {reading : List Char → Nat} {cs : List Char} (plain : '-' ∉ cs) :
    signed reading cs = reading cs := by
  unfold signed
  split
  · exact absurd List.mem_cons_self plain
  · rfl

/-- A dash comes before the zeros, and takes one of the places. -/
theorem toList_hex_negSucc (width n : Nat) :
    (hex width (.negSucc n)).toList = '-' :: (hex (width - 1) (n + 1 : Nat)).toList := by
  have dash : '-'.toUpper = '-' := by decide
  have chars : hexChars width (.negSucc n) = '-' :: hexChars (width - 1) (n + 1 : Nat) := rfl
  rw [hex, hex, String.toList_ofList, String.toList_ofList, chars, List.map_cons, dash]

/-- A number is written with the sixteen digits and the dash alone. -/
theorem mem_hex_int {width : Nat} {n : Int} {c : Char} (mem : c ∈ (hex width n).toList) :
    c ∈ '-' :: digits := by
  cases n with
  | ofNat n => exact List.mem_cons_of_mem _ (mem_hex mem)
  | negSucc n =>
      rw [toList_hex_negSucc, List.mem_cons] at mem
      rcases mem with rfl | digit
      · exact List.mem_cons_self
      · exact List.mem_cons_of_mem _ (mem_hex digit)

/-- A numeral has the value that it was written for, on either side of zero. -/
theorem signed_hex (width : Nat) (n : Int) : signed value (hex width n).toList = n := by
  cases n with
  | ofNat n =>
      have plain : '-' ∉ (hex width n).toList := fun mem => absurd (mem_hex mem) (by decide)
      exact (signed_of_no_dash plain).trans (congrArg Int.ofNat (value_hex width n))
  | negSucc n =>
      rw [toList_hex_negSucc]
      exact congrArg (fun k : Nat => -(k : Int)) (value_hex (width - 1) (n + 1))

/-- Numerals of one width tell numbers apart. -/
theorem hex_inj {width : Nat} {n k : Int} : hex width n = hex width k ↔ n = k := by
  refine ⟨fun same => ?_, congrArg _⟩
  rw [← signed_hex width n, same, signed_hex]

end Numeral

namespace Text

/-! ### Decimal numerals -/

theorem isDigit_of_mem_toDigits {n : Nat} : ∀ c ∈ Nat.toDigits 10 n, c.isDigit = true :=
  fun _ mem => Nat.isDigit_of_mem_toDigits (by decide) (by decide) mem

/-- A number is written with its digits, behind a dash if it is below zero. -/
theorem toList_toString (n : Int) :
    (0 ≤ n ∧ (toString n).toList = Nat.toDigits 10 n.natAbs) ∨
      (n < 0 ∧ (toString n).toList = '-' :: Nat.toDigits 10 n.natAbs) := by
  rw [Int.toString_eq_repr, Int.repr_eq_if]
  rcases Int.lt_or_le n 0 with below | above
  · refine .inr ⟨below, ?_⟩
    have size : (-n).toNat = n.natAbs := by omega
    rw [if_neg (Int.not_le.mpr below), size, Nat.repr_eq_ofList_toDigits]
    simp
  · refine .inl ⟨above, ?_⟩
    have size : n.toNat = n.natAbs := by omega
    rw [if_pos above, size, Nat.repr_eq_ofList_toDigits]
    simp

/-- A number is written with decimal digits and the dash alone. -/
theorem mem_toString {n : Int} {c : Char} (mem : c ∈ (toString n).toList) :
    c = '-' ∨ c.isDigit = true := by
  rcases toList_toString n with ⟨-, written⟩ | ⟨-, written⟩
  · exact .inr (isDigit_of_mem_toDigits c (written ▸ mem))
  · exact (List.mem_cons.mp (written ▸ mem)).imp_right (isDigit_of_mem_toDigits c)

theorem signed_toString (n : Int) :
    Numeral.signed (Nat.ofDigitChars 10 · 0) (toString n).toList = n := by
  rcases toList_toString n with ⟨above, written⟩ | ⟨below, written⟩
  · have plain : '-' ∉ Nat.toDigits 10 n.natAbs := fun mem =>
      absurd (isDigit_of_mem_toDigits _ mem) (by decide)
    rw [written, Numeral.signed_of_no_dash plain, Nat.ofDigitChars_ten_toDigits]
    exact Int.natAbs_of_nonneg above
  · rw [written, Numeral.signed, Nat.ofDigitChars_ten_toDigits]
    omega

/-- Decimal numerals tell numbers apart. -/
theorem toString_inj {n k : Int} : toString n = toString k ↔ n = k := by
  refine ⟨fun same => ?_, congrArg _⟩
  rw [← signed_toString n, same, signed_toString]

/-! ### Pieces -/

variable {separator : Char} {piece : List Char}

/-- A text without separators is one piece. -/
theorem pieces_of_plain (plain : separator ∉ piece) : pieces separator piece = [piece] := by
  induction piece with
  | nil => rfl
  | cons c rest ih =>
      rw [List.mem_cons, not_or] at plain
      rw [pieces, if_neg (Ne.symm plain.1), ih plain.2]

/-- The first piece of a text ends at the first separator. -/
theorem pieces_append (plain : separator ∉ piece) (rest : List Char) :
    pieces separator (piece ++ separator :: rest) = piece :: pieces separator rest := by
  induction piece with
  | nil => rw [List.nil_append, pieces, if_pos rfl]
  | cons c more ih =>
      rw [List.mem_cons, not_or] at plain
      rw [List.cons_append, pieces, if_neg (Ne.symm plain.1), ih plain.2]

/-! ### Joined pieces -/

/-- Pieces that were joined are cut apart again. -/
theorem pieces_joined {parts : List (List Char)} (plain : ∀ part ∈ parts, separator ∉ part)
    (given : parts ≠ []) : pieces separator (joined separator parts) = parts := by
  induction parts with
  | nil => exact absurd rfl given
  | cons part rest ih =>
      have first := plain part List.mem_cons_self
      cases rest with
      | nil => exact pieces_of_plain first
      | cons next others =>
          rw [joined, pieces_append first,
            ih (fun other mem => plain other (List.mem_cons_of_mem _ mem)) (by simp)]

/-- A joined text ends with its last piece. -/
theorem joined_concat (parts : List (List Char)) (last : List Char) :
    joined separator (parts ++ [last]) = parts.flatMap (· ++ [separator]) ++ last := by
  induction parts with
  | nil => rfl
  | cons part rest ih =>
      cases shape : rest ++ [last] with
      | nil => simp at shape
      | cons next others =>
          rw [List.cons_append, shape, joined, ← shape, ih]
          simp

theorem mem_joined {c : Char} {parts : List (List Char)} (mem : c ∈ joined separator parts) :
    c = separator ∨ ∃ part ∈ parts, c ∈ part := by
  induction parts with
  | nil => cases mem
  | cons part rest ih =>
      cases rest with
      | nil => exact .inr ⟨part, List.mem_cons_self, mem⟩
      | cons next others =>
          rw [joined, List.mem_append, List.mem_cons] at mem
          rcases mem with here | same | later
          · exact .inr ⟨part, List.mem_cons_self, here⟩
          · exact .inl same
          · refine (ih later).imp_right fun ⟨other, inside, found⟩ => ?_
            exact ⟨other, List.mem_cons_of_mem _ inside, found⟩

end Text

end Chip8
