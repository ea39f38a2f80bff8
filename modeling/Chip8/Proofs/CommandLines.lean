import Chip8.CommandLine
import Chip8.Proofs.Readings

/-!
Command lines of work without a window. A word that does not start with a dash is an argument
(`CommandLine.classify_plain`), and so is a whole number, although one below zero starts with a dash
(`classify_toString`). Whole numbers are read back from what is written for them, as long as they
have no more digits than are read at all (`Text.whole?_toString`), so every such number can be asked
for as the number of steps (`CommandLine.parse_steps`).
-/

namespace Chip8

namespace Text

variable {c : Char} {cs : List Char}

/-! ### Numbers as they are written -/

theorem digitValue?_of_isDigit (digit : c.isDigit = true) :
    digitValue? c = some (c.toNat - '0'.toNat) := by
  obtain ⟨low, high⟩ := Char.isDigit_iff_toNat.mp digit
  have zero : (decide (0x30 ≤ c.toNat) && decide (c.toNat < 0x30 + 10)) = true := by
    simp only [Bool.and_eq_true, decide_eq_true_eq]
    exact ⟨low, Nat.lt_succ_of_le high⟩
  unfold digitValue? decimalZeros
  rw [List.find?_cons, zero]
  rfl

theorem isBlank_of_isDigit (digit : c.isDigit = true) : isBlank c = false := by
  obtain ⟨low, high⟩ := Char.isDigit_iff_toNat.mp digit
  simp only [isBlank]
  generalize c.toNat = n at low high
  change 48 ≤ n at low
  change n ≤ 57 at high
  simp
  omega

theorem furtherDigits?_of_digits (digits : ∀ c ∈ cs, c.isDigit = true) :
    furtherDigits? cs = some (cs.map fun c => c.toNat - '0'.toNat) := by
  induction cs with
  | nil => rfl
  | cons c rest ih =>
      have first := digits c List.mem_cons_self
      have others := ih fun d mem => digits d (List.mem_cons_of_mem c mem)
      have value := digitValue?_of_isDigit first
      unfold furtherDigits?
      split
      · rename_i shape
        cases shape
      · -- A low line is no digit.
        rename_i shape
        obtain ⟨rfl, -⟩ := List.cons.inj shape
        cases first
      · rename_i shape
        obtain ⟨rfl, rfl⟩ := List.cons.inj shape
        rw [value, others]
        rfl

theorem natural?_toDigits {n : Nat} (short : (Nat.toDigits 10 n).length ≤ digitLimit) :
    natural? (Nat.toDigits 10 n) = some n := by
  have digits := isDigit_of_mem_toDigits (n := n)
  have value : Nat.ofDigitChars 10 (Nat.toDigits 10 n) 0 = n := Nat.ofDigitChars_ten_toDigits
  rw [Nat.ofDigitChars_eq_foldl] at value
  cases shape : Nat.toDigits 10 n with
  | nil => exact absurd shape Nat.toDigits_ne_nil
  | cons c rest =>
      rw [shape] at short digits value
      have first := digitValue?_of_isDigit (digits c List.mem_cons_self)
      have others := furtherDigits?_of_digits fun d mem => digits d (List.mem_cons_of_mem c mem)
      have fits : (((c :: rest).map fun c => c.toNat - '0'.toNat).length) ≤ digitLimit := by
        rwa [List.length_map]
      calc natural? (c :: rest)
          = some (((c :: rest).map fun c => c.toNat - '0'.toNat).foldl
              (fun n digit => 10 * n + digit) 0) := by
            simp only [natural?, first, others]
            exact if_pos fits
        _ = some n := by rw [List.foldl_map, value]

/-- A text without blanks is trimmed. -/
theorem trimmed_of_clean (clean : ∀ c ∈ cs, isBlank c = false) : trimmed cs = cs := by
  have drop : ∀ ds : List Char, (∀ c ∈ ds, isBlank c = false) → ds.dropWhile isBlank = ds := by
    intro ds clean
    cases ds with
    | nil => rfl
    | cons d rest => exact List.dropWhile_cons_of_neg (by simp [clean d List.mem_cons_self])
  have reversed : ∀ c ∈ cs.reverse, isBlank c = false :=
    fun c mem => clean c (List.mem_reverse.mp mem)
  rw [trimmed, drop cs clean, drop _ reversed, List.reverse_reverse]

/-- What is written for a number is read as the number. -/
theorem whole?_toString (n : Int) (short : (Nat.toDigits 10 n.natAbs).length ≤ digitLimit) :
    whole? (toString n) = some n := by
  have digits := isDigit_of_mem_toDigits (n := n.natAbs)
  have clean : ∀ c ∈ Nat.toDigits 10 n.natAbs, isBlank c = false :=
    fun c mem => isBlank_of_isDigit (digits c mem)
  have value := natural?_toDigits short
  rcases toList_toString n with ⟨above, written⟩ | ⟨below, written⟩
  · unfold whole?
    rw [written, trimmed_of_clean clean]
    split
    · rename_i shape
      have sign := digits '-' (shape ▸ List.mem_cons_self)
      cases sign
    · rename_i shape
      have sign := digits '+' (shape ▸ List.mem_cons_self)
      cases sign
    · rw [value]
      exact congrArg some (Int.natAbs_of_nonneg above)
  · have behind : ∀ c ∈ '-' :: Nat.toDigits 10 n.natAbs, isBlank c = false := by
      intro c mem
      rcases List.mem_cons.mp mem with rfl | mem
      · rfl
      · exact clean c mem
    unfold whole?
    rw [written, trimmed_of_clean behind]
    simp only
    rw [value]
    exact congrArg some (show -(n.natAbs : Int) = n by omega)

end Text

namespace CommandLine

/-! ### What the words are -/

variable {path text : String}

/-- A word that does not start with a dash is an argument. -/
theorem classify_plain (plain : text.toList.head? ≠ some '-') :
    classify text = .ok (.argument text) := by
  simp only [classify, if_pos plain]

theorem isPlainNumber_of_digits {text : List Char} (some : text ≠ [])
    (digits : ∀ c ∈ text, c.isDigit = true) : isPlainNumber text = true := by
  have pointless : text.dropWhile (· != '.') = [] := by
    have passed : ∀ c ∈ text, (c != '.') = true := by
      intro c mem
      have digit := digits c mem
      rw [bne_iff_ne]
      rintro rfl
      cases digit
    have all : (text ++ []).dropWhile (· != '.') = [] := List.dropWhile_append_of_pos passed
    rwa [List.append_nil] at all
  have all : allDigits text = true := by
    rw [allDigits, List.all_eq_true]
    intro c mem
    rw [Text.digitValue?_of_isDigit (digits c mem)]
    rfl
  simp only [isPlainNumber, pointless, all, Bool.and_true, Bool.not_eq_true',
    List.isEmpty_eq_false_iff]
  exact some

/-- A number is an argument, also if it starts with a dash. -/
theorem classify_toString (n : Int) : classify (toString n) = .ok (.argument (toString n)) := by
  have digits := Text.isDigit_of_mem_toDigits (n := n.natAbs)
  rcases Text.toList_toString n with ⟨-, written⟩ | ⟨-, written⟩
  · refine classify_plain ?_
    rw [written]
    intro sign
    have digit := digits '-' (List.mem_of_mem_head? sign)
    cases digit
  · cases shape : Nat.toDigits 10 n.natAbs with
    | nil => exact absurd shape Nat.toDigits_ne_nil
    | cons c rest =>
        rw [shape] at written digits
        have first := digits c List.mem_cons_self
        have short : isLong ('-' :: c :: rest) = false := by
          unfold isLong
          split
          · rename_i same
            cases same
            cases first
          · rfl
        have number : isNegativeNumber ('-' :: c :: rest) = true := by
          simp only [isNegativeNumber, isPlainNumber_of_digits (List.cons_ne_nil c rest) digits,
            Bool.true_or]
        have switch : lettered? c = none := by
          unfold lettered?
          split
          · cases first
          · cases first
          · rfl
        have whole : String.ofList ('-' :: c :: rest) = toString n := by
          rw [← written, String.ofList_toList]
        simp only [classify, written, short, lettered, switch, undeclared, number, whole]
        rfl

/-! ### What is read -/

theorem classifyAll_cons {word : Word} {rest : List String} {words : List Word}
    (unmarked : text ≠ "--") (first : classify text = .ok word)
    (others : classifyAll rest = .ok words) :
    classifyAll (text :: rest) = .ok (word :: words) := by
  simp only [classifyAll, if_neg unmarked, first, others]
  rfl

theorem ne_marker_of_plain (plain : text.toList.head? ≠ some '-') : text ≠ "--" := by
  rintro rfl
  exact plain rfl

theorem toString_ne_marker (n : Int) : toString n ≠ "--" := by
  intro marker
  have digits := Text.isDigit_of_mem_toDigits (n := n.natAbs)
  have dash : '-' ∈ Nat.toDigits 10 n.natAbs := by
    rcases Text.toList_toString n with ⟨-, written⟩ | ⟨-, written⟩
    · rw [← written, marker]
      decide
    · rw [marker] at written
      rw [← (List.cons.inj written).2]
      decide
  cases digits '-' dash

def modeWords (mode : Mode) : List String :=
  (if mode.legacyStore then ["--legacy-store"] else []) ++
    (if mode.strict then ["--strict"] else [])

/-- A path and a single word are read as a run without a window of the usual length. -/
theorem parse_headless (plain : path.toList.head? ≠ some '-') :
    parse [path, "--headless"] = .ok { program := path, headless := true } := by
  have words : classifyAll [path, "--headless"] =
      .ok [.argument path, .option (.switch .headless) none] :=
    classifyAll_cons (ne_marker_of_plain plain) (classify_plain plain) rfl
  simp only [parse, words]
  rfl

/-- A run without a window can be asked for any number of steps, below zero as well, and in any
mode. -/
theorem parse_steps (plain : path.toList.head? ≠ some '-') (n : Int)
    (short : (Nat.toDigits 10 n.natAbs).length ≤ Text.digitLimit) (mode : Mode) :
    parse ([path, "--headless", "--steps", toString n] ++ modeWords mode) =
      .ok { program := path, headless := true, steps := some n, mode := mode } := by
  have value := Text.whole?_toString n short
  have number (rest : List String) (words : List Word) (others : classifyAll rest = .ok words) :
      classifyAll (path :: "--headless" :: "--steps" :: toString n :: rest) =
        .ok (.argument path :: .option (.switch .headless) none :: .option (.dial .steps) none ::
          .argument (toString n) :: words) :=
    classifyAll_cons (ne_marker_of_plain plain) (classify_plain plain)
      (classifyAll_cons (by decide) rfl (classifyAll_cons (by decide) rfl
        (classifyAll_cons (toString_ne_marker n) (classify_toString n) others)))
  -- Each of the two switches is there or not; what stands before them is told apart once.
  obtain ⟨legacyStore, strict⟩ := mode
  cases legacyStore <;> cases strict
  all_goals
    simp only [modeWords, parse, List.cons_append, List.nil_append, if_true, Bool.false_eq_true,
      if_false]
    rw [number _ _ rfl]
    simp only [readWords, Progress.turnOn, Progress.set, value]
    rfl

end CommandLine

end Chip8
