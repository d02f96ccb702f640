import ArmBoard.Cpu.Assembly
import Mathlib.Data.List.Basic

/-!
# Reading numbers and registers

The parts of an assembly text stand close together, but a number can be told
from what follows it, since it ends where its digits end. Registers are numbers
behind a letter, and a list of them ends with its brace.
-/
namespace ArmBoard.Text

/-- A word is read up to the first letter that does not belong to its kind. -/
theorem word_append_inj {p : Char → Bool} {word other rest also : List Char}
    (inside : ∀ letter ∈ word, p letter = true) (alsoInside : ∀ letter ∈ other, p letter = true)
    (stops : ∀ letter ∈ rest.head?, p letter = false)
    (alsoStops : ∀ letter ∈ also.head?, p letter = false)
    (same : word ++ rest = other ++ also) : word = other ∧ rest = also := by
  have whole {word rest : List Char} (inside : ∀ letter ∈ word, p letter = true)
      (stops : ∀ letter ∈ rest.head?, p letter = false) : (word ++ rest).takeWhile p = word := by
    rw [List.takeWhile_append_of_pos inside]
    cases rest with
    | nil => simp
    | cons letter rest => simp [stops letter rfl]
  have words := congrArg (List.takeWhile p) same
  rw [whole inside stops, whole alsoInside alsoStops] at words
  rw [words] at same
  exact ⟨words, List.append_cancel_left same⟩

section Digits

/-- The digits of a number tell the number, in any base up to sixteen. -/
theorem toDigits_inj {base : Nat} (big : 1 < base) (small : base ≤ 16) {one other : Nat}
    (same : Nat.toDigits base one = Nat.toDigits base other) : one = other := by
  have letter : ∀ digit < 16, ∀ also < 16, digit.digitChar = also.digitChar → digit = also := by
    decide
  have bound (number : Nat) : number % base < 16 := by
    have below : number % base < base := Nat.mod_lt _ (by omega)
    omega
  -- The induction takes the last digit off both numbers.
  induction one using Nat.strongRecOn generalizing other with
  | _ one hypothesis =>
    rw [Nat.toDigits_eq_if big (n := one), Nat.toDigits_eq_if big (n := other)] at same
    split at same <;> split at same
    · simp only [List.cons.injEq, and_true] at same
      exact letter one (by omega) other (by omega) same
    · have lengths := congrArg List.length same
      simp at lengths
    · have lengths := congrArg List.length same
      simp at lengths
    · obtain ⟨front, last⟩ := List.append_inj' same rfl
      simp only [List.cons.injEq, and_true] at last
      have quotient := hypothesis (one / base) (Nat.div_lt_self (by omega) big) front
      have rest := letter _ (bound one) _ (bound other) last
      rw [← Nat.div_add_mod one base, ← Nat.div_add_mod other base, quotient, rest]

theorem hex_inj {one other : Nat} (same : hex one = hex other) : one = other := by
  simp only [hex, hexDigits, String.append_right_inj, String.ofList_inj] at same
  exact toDigits_inj (by decide) (by decide) same

end Digits

section Numbers

variable {one other : Nat} {rest also : List Char}

/-- The text does not go on with a digit. -/
def Stops (rest : List Char) : Prop := ∀ letter ∈ rest.head?, letter.isDigit = false

@[simp] theorem stops_nil : Stops [] := by simp [Stops]

@[simp] theorem stops_cons {letter : Char} : Stops (letter :: rest) ↔ letter.isDigit = false := by
  simp [Stops]

theorem isDigit_of_mem {letter : Char} (member : letter ∈ Nat.toDigits 10 one) :
    letter.isDigit = true :=
  Nat.isDigit_of_mem_toDigits (by decide) (by decide) member

@[simp] theorem digits_inj : Nat.toDigits 10 one = Nat.toDigits 10 other ↔ one = other :=
  ⟨toDigits_inj (by decide) (by decide), congrArg _⟩

/-- A number ends where its digits end. -/
@[simp] theorem digits_append_inj (stops : Stops rest) (alsoStops : Stops also) :
    Nat.toDigits 10 one ++ rest = Nat.toDigits 10 other ++ also ↔ one = other ∧ rest = also := by
  constructor
  · intro same
    obtain ⟨numbers, rests⟩ := word_append_inj (fun _ => isDigit_of_mem) (fun _ => isDigit_of_mem)
      stops alsoStops same
    exact ⟨digits_inj.mp numbers, rests⟩
  · rintro ⟨rfl, rfl⟩
    rfl

@[simp] theorem digits_eq_append (stops : Stops also) :
    Nat.toDigits 10 one = Nat.toDigits 10 other ++ also ↔ one = other ∧ also = [] := by
  have read : Nat.toDigits 10 one ++ [] = Nat.toDigits 10 other ++ also ↔
      one = other ∧ [] = also := digits_append_inj stops_nil stops
  rw [List.append_nil] at read
  exact read.trans (and_congr_right' eq_comm)

@[simp] theorem append_eq_digits (stops : Stops rest) :
    Nat.toDigits 10 one ++ rest = Nat.toDigits 10 other ↔ one = other ∧ rest = [] := by
  rw [eq_comm, digits_eq_append stops, eq_comm]

theorem int_inj {one other : Int} (same : toString one = toString other) : one = other := by
  have unsigned (number : Nat) (rest : List Char) : Nat.toDigits 10 number ≠ '-' :: rest := by
    intro signed
    have digit : '-'.isDigit = true := isDigit_of_mem (signed ▸ List.mem_cons_self)
    simp at digit
  have letters := congrArg String.toList same
  simp only [Int.toString_eq_repr, Int.repr_eq_if] at letters
  split at letters <;> split at letters
  · have numbers : one.toNat = other.toNat := by simpa using letters
    omega
  · simp [unsigned] at letters
  · simp [(unsigned _ _).symm] at letters
  · have numbers : (-one).toNat = (-other).toNat := by simpa using letters
    omega

end Numbers

section Registers

variable {rest also : List Char}

@[simp] theorem toList_registerText (number : Nat) :
    (registerText number).toList = 'R' :: Nat.toDigits 10 number := by
  simp [registerText]

/-- The names of registers, separated by commas. -/
def namesText (numbers : List (Fin 16)) : String :=
  ", ".intercalate (numbers.map fun number => registerText number.val)

/-- What follows the first of several names. -/
def moreNames : List (Fin 16) → List Char
  | [] => []
  | number :: numbers => ',' :: ' ' :: ((registerText number.val).toList ++ moreNames numbers)

theorem toList_namesText (number : Fin 16) (numbers : List (Fin 16)) :
    (namesText (number :: numbers)).toList =
      (registerText number.val).toList ++ moreNames numbers := by
  induction numbers generalizing number with
  | nil => simp [namesText, moreNames]
  | cons next numbers hypothesis =>
    have later := hypothesis next
    simp only [namesText, String.toList_intercalate, List.map_cons] at later ⊢
    rw [List.intercalate_cons_cons, later]
    simp [moreNames]

theorem stops_moreNames (numbers : List (Fin 16)) :
    Stops (moreNames numbers ++ '\x7d' :: rest) := by
  cases numbers <;> simp [moreNames]

theorem moreNames_append_inj {numbers others : List (Fin 16)}
    (same : moreNames numbers ++ '\x7d' :: rest = moreNames others ++ '\x7d' :: also) :
    numbers = others ∧ rest = also := by
  induction numbers generalizing others with
  | nil =>
    cases others with
    | nil => simpa [moreNames] using same
    | cons => simp [moreNames] at same
  | cons number numbers hypothesis =>
    cases others with
    | nil => simp [moreNames] at same
    | cons other others =>
      have read : number.val = other.val ∧
          moreNames numbers ++ '\x7d' :: rest = moreNames others ++ '\x7d' :: also := by
        simpa [moreNames, stops_moreNames] using same
      obtain ⟨rfl, rfl⟩ := hypothesis read.2
      obtain rfl := Fin.ext read.1
      exact ⟨rfl, rfl⟩

/-- A list of registers is read up to the brace behind it. -/
theorem namesText_append_inj {numbers others : List (Fin 16)}
    (same : (namesText numbers).toList ++ '\x7d' :: rest =
      (namesText others).toList ++ '\x7d' :: also) : numbers = others ∧ rest = also := by
  have empty : (namesText []).toList = [] := rfl
  cases numbers <;> cases others
  case nil.nil => simpa [empty] using same
  case nil.cons => simp [empty, toList_namesText] at same
  case cons.nil => simp [empty, toList_namesText] at same
  case cons.cons number numbers other others =>
    have read : number.val = other.val ∧
        moreNames numbers ++ '\x7d' :: rest = moreNames others ++ '\x7d' :: also := by
      simpa [toList_namesText, stops_moreNames] using same
    obtain ⟨rfl, rfl⟩ := moreNames_append_inj read.2
    obtain rfl := Fin.ext read.1
    exact ⟨rfl, rfl⟩

end Registers

end ArmBoard.Text
