/-!
# Doubles

Binary floating point numbers of 64 bits. There are two undefined ones, of which one stands behind a
minus sign; they differ in the total order of all doubles and nowhere else. A calculation on an
undefined number gives the first undefined number that went into it.
-/

namespace Admission

inductive Double where
  | of (value : Float)
  /-- The undefined number behind a minus sign. -/
  | minusUndefined
  deriving Repr

namespace Double

/-- A calculation on two numbers. -/
def combine (f : Float → Float → Float) : Double → Double → Double
  | of x, of y => of (f x y)
  | of x, minusUndefined => if x.isNaN then of x else minusUndefined
  | minusUndefined, _ => minusUndefined

/-- A comparison of two numbers. It fails where one of them is undefined. -/
def Compares (r : Float → Float → Prop) : Double → Double → Prop
  | of x, of y => r x y
  | _, _ => False

instance : Inhabited Double := ⟨of 0⟩
instance : Zero Double := ⟨of 0⟩
instance : NatCast Double := ⟨fun n => of (.ofNat n)⟩
instance : IntCast Double := ⟨fun n => of (.ofInt n)⟩
instance : OfScientific Double := ⟨fun m negative e => of (.ofScientific m negative e)⟩
instance : Add Double := ⟨combine (· + ·)⟩
instance : Sub Double := ⟨combine (· - ·)⟩
instance : Mul Double := ⟨combine (· * ·)⟩
instance : Div Double := ⟨combine (· / ·)⟩
instance : LT Double := ⟨Compares (· < ·)⟩
instance : LE Double := ⟨Compares (· ≤ ·)⟩

instance : DecidableLT Double
  | of x, of y => inferInstanceAs (Decidable (x < y))
  | of _, minusUndefined => isFalse id
  | minusUndefined, _ => isFalse id

instance : DecidableLE Double
  | of x, of y => inferInstanceAs (Decidable (x ≤ y))
  | of _, minusUndefined => isFalse id
  | minusUndefined, _ => isFalse id

/-- The number with the other sign. -/
instance : Neg Double where
  neg
    | of x => if x.isNaN then minusUndefined else of (-x)
    | minusUndefined => of (0.0 / 0.0)

/-- Neither infinite nor undefined. -/
def isFinite : Double → Bool
  | of x => x.isFinite
  | minusUndefined => false

/-- The whole part. A negative or undefined number has none. -/
def floor : Double → Nat
  | of x => x.toUInt64.toNat
  | minusUndefined => 0

def bits : Double → Nat
  | of x => x.toBits.toNat
  | minusUndefined => 0xFFF8000000000000

/-- A number that grows with the double: `-0` comes before `0`, and the undefined numbers stand at the
two ends. -/
def rank (x : Double) : Int := if x.bits < Nat.pow 2 63 then x.bits else Nat.pow 2 63 - 1 - x.bits

example : minusUndefined.rank < (-1.0 / 0.0 : Double).rank ∧ (-0.0 : Double).rank < (0 : Double).rank ∧
    (1.0 / 0.0 : Double).rank < (0.0 / 0.0 : Double).rank := by decide +kernel

end Double

end Admission
