import ArmBoard.Cpu.Encoding

/-!
# Comparing patterns

What two bit patterns say about one word. Patterns that conflict never match
the same word, and a pattern that refines another one matches only words that
the other one matches. Both are questions about the patterns alone, so that
they can be settled for all words at once.
-/
namespace ArmBoard.Pattern

/-- Whether two patterns ask for different values of some bit. -/
def conflicts (first second : Pattern) : Bool :=
  first.mask &&& second.mask &&& (first.value ^^^ second.value) != 0

/-- Whether a pattern asks for every bit that another one asks for, with the same values. -/
def refines (first second : Pattern) : Bool :=
  first.mask &&& second.mask == second.mask && first.value &&& second.mask == second.value

theorem not_matches_of_conflicts {first second : Pattern} {word : Word}
    (conflict : first.conflicts second = true) (matched : first.matches word = true) :
    second.matches word = false := by
  rw [Bool.eq_false_iff]
  intro also
  simp only [conflicts, bne_iff_ne, ne_eq] at conflict
  simp only [Pattern.matches, beq_iff_eq] at matched also
  apply conflict
  rw [← matched, ← also]
  -- Both values are read off the word, so they agree wherever both masks are set.
  change _ = 0#32
  ext index bound
  simp only [BitVec.getElem_and, BitVec.getElem_xor, BitVec.getElem_zero]
  cases word[index] <;> cases first.mask[index] <;> cases second.mask[index] <;> rfl

theorem matches_of_refines {first second : Pattern} {word : Word}
    (refined : first.refines second = true) (matched : first.matches word = true) :
    second.matches word = true := by
  simp only [refines, Bool.and_eq_true, beq_iff_eq] at refined
  simp only [Pattern.matches, beq_iff_eq] at matched ⊢
  obtain ⟨within, agree⟩ := refined
  rw [← agree, ← matched, BitVec.and_assoc, within]

/-- The bits that a pattern asks for, lowest first. -/
def asked (pattern : Pattern) : List Nat :=
  (List.range 32).filter fun index => Bits.test pattern.mask index

/-- A pattern whose value lies within its mask matches bit by bit. -/
theorem matches_iff_asked {pattern : Pattern} (within : pattern.value &&& pattern.mask = pattern.value)
    (word : Word) :
    pattern.matches word = true ↔
      ∀ index ∈ pattern.asked, Bits.test word index = Bits.test pattern.value index := by
  simp only [Pattern.matches, beq_iff_eq, asked, List.mem_filter, List.mem_range, Bits.test]
  constructor
  · rintro matched index ⟨_, set⟩
    rw [← matched, BitVec.getLsbD_and, set, Bool.and_true]
  · intro agree
    apply BitVec.eq_of_getLsbD_eq
    intro index bound
    rw [← within, BitVec.getLsbD_and, BitVec.getLsbD_and]
    by_cases set : pattern.mask.getLsbD index = true
    · rw [agree index ⟨bound, set⟩]
    · simp only [set, Bool.and_false]

end ArmBoard.Pattern
