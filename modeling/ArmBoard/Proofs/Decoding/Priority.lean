import ArmBoard.Proofs.Decoding.Pattern
import ArmBoard.Cpu.Decoder

/-!
# Which families recognise one word

Two families never recognise the same word, except that every doubleword
transfer is also recognised as a halfword transfer. The order in which
families are tried therefore matters for that pair alone.
-/
namespace ArmBoard.Family

theorem mem_decodingOrder (family : Family) : family ∈ decodingOrder := by
  cases family <;> decide

theorem nodup_decodingOrder : decodingOrder.Nodup := by decide

/-- Doubleword and halfword transfers, the first of which are all among the second. -/
def pair (first second : Family) : Bool := first == doubleTransfer && second == halfTransfer

/--
Whether the patterns alone keep two families apart: any two accepted patterns conflict, unless
what one family accepts is excluded by the other.
-/
def apart (first second : Family) : Bool :=
  first.accepted.all fun one => second.accepted.all fun other =>
    one.conflicts other || second.excluded.any one.refines || first.excluded.any other.refines

theorem recognises_iff (family : Family) (word : Word) :
    family.recognises word = true ↔
      (∃ pattern ∈ family.accepted, pattern.matches word = true) ∧
        ∀ pattern ∈ family.excluded, pattern.matches word = false := by
  simp only [recognises, Bool.and_eq_true, List.any_eq_true, Bool.not_eq_true', List.any_eq_false,
    Bool.not_eq_true]

theorem not_any_refines {family : Family} {pattern : Pattern} {word : Word}
    (recognised : family.recognises word = true) (matched : pattern.matches word = true) :
    family.excluded.any pattern.refines = false := by
  rw [List.any_eq_false]
  intro excluded member refined
  have absent := ((recognises_iff family word).mp recognised).2 excluded member
  rw [Pattern.matches_of_refines refined matched] at absent
  cases absent

theorem not_recognises_of_apart {first second : Family} {word : Word}
    (separate : first.apart second = true) (recognised : first.recognises word = true) :
    second.recognises word = false := by
  rw [Bool.eq_false_iff]
  intro also
  obtain ⟨one, oneMember, oneMatches⟩ := ((recognises_iff first word).mp recognised).1
  obtain ⟨other, otherMember, otherMatches⟩ := ((recognises_iff second word).mp also).1
  simp only [apart, List.all_eq_true] at separate
  have reason := separate one oneMember other otherMember
  rw [not_any_refines also oneMatches, not_any_refines recognised otherMatches, Bool.or_false,
    Bool.or_false] at reason
  have contradiction := Pattern.not_matches_of_conflicts reason oneMatches
  rw [otherMatches] at contradiction
  cases contradiction

theorem all_apart :
    (decodingOrder.all fun first => decodingOrder.all fun second =>
      first == second || pair first second || pair second first || first.apart second) = true := by
  decide +kernel

theorem pair_iff (first second : Family) :
    pair first second = true ↔ first = doubleTransfer ∧ second = halfTransfer := by
  simp only [pair, Bool.and_eq_true, beq_iff_eq]

theorem eq_or_pair {first second : Family} {word : Word}
    (recognised : first.recognises word = true) (also : second.recognises word = true) :
    first = second ∨ pair first second = true ∨ pair second first = true := by
  have known := all_apart
  simp only [List.all_eq_true] at known
  have reason := known first (mem_decodingOrder first) second (mem_decodingOrder second)
  simp only [Bool.or_eq_true, beq_iff_eq] at reason
  rcases reason with ((equal | forward) | backward) | separate
  · exact Or.inl equal
  · exact Or.inr (Or.inl forward)
  · exact Or.inr (Or.inr backward)
  · rw [not_recognises_of_apart separate recognised] at also
    cases also

/-- The families that recognise a word, in decoding order. -/
def recognisers (word : Word) : List Family := decodingOrder.filter (·.recognises word)

theorem recognises_of_mem {word : Word} {family : Family} (member : family ∈ recognisers word) :
    family.recognises word = true := (List.mem_filter.mp member).2

/-- Of two families that recognise a word one after the other, the first is the doubleword one. -/
theorem pair_of_sublist {word : Word} {first second : Family}
    (sublist : [first, second].Sublist (recognisers word)) :
    first = doubleTransfer ∧ second = halfTransfer := by
  have ordered := sublist.trans List.filter_sublist
  have different : first ≠ second := by
    have nodup := nodup_decodingOrder.sublist ordered
    simpa using nodup
  have recognised := recognises_of_mem (sublist.subset (by simp : first ∈ [first, second]))
  have also := recognises_of_mem (sublist.subset (by simp : second ∈ [first, second]))
  rcases eq_or_pair recognised also with equal | forward | backward
  · exact absurd equal different
  · exact (pair_iff first second).mp forward
  · -- The halfword family is not tried before the doubleword one.
    obtain ⟨rfl, rfl⟩ := (pair_iff second first).mp backward
    exact absurd ordered (by decide)

theorem recognisers_cases (word : Word) :
    recognisers word = [] ∨ (∃ family, recognisers word = [family]) ∨
      recognisers word = [doubleTransfer, halfTransfer] := by
  rcases found : recognisers word with _ | ⟨first, _ | ⟨second, rest⟩⟩
  · exact Or.inl rfl
  · exact Or.inr (Or.inl ⟨first, rfl⟩)
  · right; right
    have front : [first, second].Sublist (recognisers word) := by
      rw [found]
      exact (List.nil_sublist rest).cons_cons second |>.cons_cons first
    obtain ⟨rfl, rfl⟩ := pair_of_sublist front
    cases rest with
    | nil => rfl
    | cons third rest =>
      -- A third family would follow the doubleword one too, and so be the halfword one again.
      have later : [halfTransfer, third].Sublist (recognisers word) := by
        rw [found]
        exact (((List.nil_sublist rest).cons_cons third).cons_cons halfTransfer).cons doubleTransfer
      obtain ⟨impossible, _⟩ := pair_of_sublist later
      cases impossible

theorem classField_eq_zero_iff (word : Word) :
    Bits.field word 25 27 = 0 ↔
      Bits.test word 25 = false ∧ Bits.test word 26 = false ∧ Bits.test word 27 = false := by
  rw [Bits.field_eq_zero_iff]
  constructor
  · intro clear
    exact ⟨clear 25 (by omega) (by omega), clear 26 (by omega) (by omega),
      clear 27 (by omega) (by omega)⟩
  · rintro ⟨first, second, third⟩ index above below
    obtain rfl | rfl | rfl : index = 25 ∨ index = 26 ∨ index = 27 := by omega
    · exact first
    · exact second
    · exact third

theorem recognises_doubleTransfer_iff (word : Word) :
    doubleTransfer.recognises word = true ↔
      Bits.field word 25 27 = 0 ∧ Bits.test word 7 = true ∧ Bits.test word 4 = true ∧
        Bits.test word 20 = false ∧ Bits.test word 6 = true := by
  have recognised : doubleTransfer.recognises word =
      (Pattern.mk 0x0E1000D0 0x000000D0).matches word := by
    simp only [recognises, accepted, excluded, List.any_cons, List.any_nil, Bool.or_false,
      Bool.not_false, Bool.and_true]
  have asked : (Pattern.mk 0x0E1000D0 0x000000D0).asked = [4, 6, 7, 20, 25, 26, 27] := by decide
  rw [recognised, Pattern.matches_iff_asked (by decide), asked, classField_eq_zero_iff]
  constructor
  · intro bit
    exact ⟨⟨bit 25 (by simp), bit 26 (by simp), bit 27 (by simp)⟩, bit 7 (by simp),
      bit 4 (by simp), bit 20 (by simp), bit 6 (by simp)⟩
  · rintro ⟨⟨first, second, third⟩, seven, four, twenty, six⟩ index member
    simp only [List.mem_cons, List.not_mem_nil, or_false] at member
    rcases member with rfl | rfl | rfl | rfl | rfl | rfl | rfl <;> assumption

/-- Every doubleword transfer is recognised as a halfword transfer too. -/
theorem recognises_halfTransfer_of_doubleTransfer {word : Word}
    (recognised : doubleTransfer.recognises word = true) : halfTransfer.recognises word = true := by
  obtain ⟨pattern, member, matched⟩ := ((recognises_iff _ word).mp recognised).1
  refine (recognises_iff _ word).mpr ⟨⟨⟨0x0E0000D0, 0x000000D0⟩, by decide, ?_⟩, by simp [excluded]⟩
  simp only [accepted, List.mem_singleton] at member
  subst pattern
  exact Pattern.matches_of_refines (by decide) matched

theorem recognisers_eq_pair_iff (word : Word) :
    recognisers word = [doubleTransfer, halfTransfer] ↔ doubleTransfer.recognises word = true := by
  constructor
  · intro found
    exact recognises_of_mem (by rw [found]; simp)
  · intro recognised
    have first : doubleTransfer ∈ recognisers word :=
      List.mem_filter.mpr ⟨mem_decodingOrder _, recognised⟩
    have second : halfTransfer ∈ recognisers word :=
      List.mem_filter.mpr
        ⟨mem_decodingOrder _, recognises_halfTransfer_of_doubleTransfer recognised⟩
    rcases recognisers_cases word with unrecognised | ⟨family, one⟩ | both
    · simp [unrecognised] at first
    · simp only [one, List.mem_singleton] at first second
      rw [← first] at second
      cases second
    · exact both

/-- Any order that tries doublewords before halfwords finds the same family first. -/
theorem first?_eq_of_perm {order : List Family} (perm : order.Perm decodingOrder)
    (ordered : [doubleTransfer, halfTransfer].Sublist order) (word : Word) :
    first? order word = first? decodingOrder word := by
  have same : (order.filter (·.recognises word)).Perm (recognisers word) := perm.filter _
  simp only [first?, ← List.head?_filter]
  change _ = (recognisers word).head?
  rcases recognisers_cases word with unrecognised | ⟨family, one⟩ | both
  · rw [unrecognised] at same ⊢
    rw [same.eq_nil]
  · rw [one] at same ⊢
    rw [List.perm_singleton.mp same]
  · -- Both are found, and the order of the two is the one that was asked for.
    have recognised := (recognisers_eq_pair_iff word).mp both
    have also := recognises_halfTransfer_of_doubleTransfer recognised
    have found := ordered.filter (·.recognises word)
    simp only [List.filter_cons, recognised, also, if_true, List.filter_nil] at found
    rw [both] at same ⊢
    rw [← found.eq_of_length same.length_eq.symm]

/--
The families that recognise a word are none, one, or the doubleword and the halfword transfer. The
pair occurs exactly in the extension space with L clear and bit 6 set. So every order that tries
doublewords before halfwords decodes every word alike.
-/
theorem decoding_order_matters_for_one_pair :
    (∀ word : Word,
      (recognisers word = [] ∨ (∃ family, recognisers word = [family]) ∨
        recognisers word = [doubleTransfer, halfTransfer]) ∧
      (recognisers word = [doubleTransfer, halfTransfer] ↔
        Bits.field word 25 27 = 0 ∧ Bits.test word 7 = true ∧ Bits.test word 4 = true ∧
          Bits.test word 20 = false ∧ Bits.test word 6 = true)) ∧
    ∀ order : List Family, order.Perm decodingOrder →
      [doubleTransfer, halfTransfer].Sublist order →
        ∀ word, Instruction.decodeWith order word = Instruction.decode word := by
  refine ⟨fun word => ⟨recognisers_cases word, ?_⟩, fun order perm ordered word => ?_⟩
  · rw [recognisers_eq_pair_iff, recognises_doubleTransfer_iff]
  · simp only [Instruction.decode, Instruction.decodeWith, first?_eq_of_perm perm ordered word]

/-- With the broadest families tried first, `LDRD R2, [R0]` decodes as ever. -/
theorem decodeWith_broadest_first_of_doubleword :
    Instruction.decodeWith
        [softwareInterrupt, coprocessorRegister, coprocessorOperation, coprocessorTransfer, branch,
          blockTransfer, singleTransfer, dataProcessing, statusTransfer, doubleTransfer,
          halfTransfer, multiply, multiplyLong, swap, byteReverse, branchExchange] 0xE1C020D0 =
      Instruction.decode 0xE1C020D0 :=
  decoding_order_matters_for_one_pair.2 _ (by decide) (by decide) _

end ArmBoard.Family
