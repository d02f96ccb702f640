import ArmBoard.Word

/-!
# Conditions

Every instruction carries one of sixteen conditions in its top four bits. The
codes run in pairs: an odd code negates the even one before it. The last pair
stands apart: `al` always passes and `nv` is reserved.
-/
namespace ArmBoard

inductive Condition where
  | eq
  | ne
  | cs
  | cc
  | mi
  | pl
  | vs
  | vc
  | hi
  | ls
  | ge
  | lt
  | gt
  | le
  | al
  | nv
  deriving DecidableEq, Repr

namespace Condition

/-- The condition of a code; only the low four bits of `code` count. -/
def ofCode (code : Nat) : Condition :=
  match code % 16 with
  | 0 => eq
  | 1 => ne
  | 2 => cs
  | 3 => cc
  | 4 => mi
  | 5 => pl
  | 6 => vs
  | 7 => vc
  | 8 => hi
  | 9 => ls
  | 10 => ge
  | 11 => lt
  | 12 => gt
  | 13 => le
  | 14 => al
  | _ => nv

def code : Condition → Nat
  | eq => 0
  | ne => 1
  | cs => 2
  | cc => 3
  | mi => 4
  | pl => 5
  | vs => 6
  | vc => 7
  | hi => 8
  | ls => 9
  | ge => 10
  | lt => 11
  | gt => 12
  | le => 13
  | al => 14
  | nv => 15

def name : Condition → String
  | eq => "EQ"
  | ne => "NE"
  | cs => "CS"
  | cc => "CC"
  | mi => "MI"
  | pl => "PL"
  | vs => "VS"
  | vc => "VC"
  | hi => "HI"
  | ls => "LS"
  | ge => "GE"
  | lt => "LT"
  | gt => "GT"
  | le => "LE"
  | al => "AL"
  | nv => "NV"

/-- What assembly text appends to a mnemonic: the name, or nothing for `al`. -/
def suffix : Condition → String
  | al => ""
  | condition => condition.name

/-- The condition in the top four bits of an instruction word. -/
def ofWord (word : Word) : Condition := ofCode (Bits.field word 28 31)

theorem ofCode_code (condition : Condition) : ofCode condition.code = condition := by
  cases condition <;> rfl

end Condition

end ArmBoard
