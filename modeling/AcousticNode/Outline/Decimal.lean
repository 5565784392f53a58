import AcousticNode.Wire.Binary

/-!
# Shortest decimals

A floating-point number is written with as few decimal digits as tell it from its neighbours,
and of those with the nearest.  The number and the interval of decimals that read back as it
are kept as naturals over one power of two, so nothing is rounded on the way.

* `shortest_within` : what is written lies in the rounding interval.
-/

set_option autoImplicit false

namespace AcousticNode

/-- The widths of a floating-point format. -/
structure FloatFormat where
  fractionBits : Nat
  exponentBits : Nat

namespace FloatFormat

def single : FloatFormat := ⟨23, 8⟩

def double : FloatFormat := ⟨52, 11⟩

/-- The exponent field of one. -/
def bias (f : FloatFormat) : Nat := Nat.pow 2 (f.exponentBits - 1) - 1

/-- The magnitude of infinity; those above it are no numbers. -/
def infinity (f : FloatFormat) : Nat :=
  (Nat.pow 2 f.exponentBits - 1) * Nat.pow 2 f.fractionBits

end FloatFormat

/-- A positive number `value` and the decimals that read back as it, from `value - below` to
`value + above`, all in units of `2 ^ exponent`. -/
structure RoundingInterval where
  value : Nat
  below : Nat
  above : Nat
  exponent : Int
  /-- Whether the two ends read back as the number as well. -/
  closed : Bool

/-- The number `digits * 10 ^ exponent`. -/
structure Decimal where
  digits : Nat
  exponent : Int
  deriving DecidableEq, Repr

namespace RoundingInterval

/-- The interval of a finite magnitude.  Below a power of two the neighbours are twice as
close, and numbers with an exponent field of zero have no leading one.  Ties go to an even
fraction, so the ends belong to numbers with such a fraction. -/
def ofMagnitude (f : FloatFormat) (magnitude : Nat) : RoundingInterval :=
  let one := Nat.pow 2 f.fractionBits
  let fraction := magnitude % one
  let field := magnitude / one
  let closed := fraction % 2 == 0
  let unit : Int := field - f.bias - f.fractionBits
  if field = 0 then ⟨2 * fraction, 1, 1, unit, closed⟩
  else if fraction = 0 then ⟨4 * one, 1, 2, unit - 2, closed⟩
  else ⟨2 * (one + fraction), 1, 1, unit - 1, closed⟩

/-- The factor that makes an integer of the interval when it is counted in `10 ^ q`. -/
def scale (r : RoundingInterval) (q : Int) : Nat :=
  Nat.pow 2 r.exponent.toNat * Nat.pow 10 (-q).toNat

/-- What `10 ^ q` is when the interval is multiplied by `scale`. -/
def step (r : RoundingInterval) (q : Int) : Nat :=
  Nat.pow 2 (-r.exponent).toNat * Nat.pow 10 q.toNat

/-- The multiple of `10 ^ q` to write, if one lies in the interval: the nearest on either side
of the number, the upper one if both are equally near. -/
def candidate? (r : RoundingInterval) (q : Int) : Option Nat :=
  let floor := r.value * r.scale q / r.step q
  let rest := r.value * r.scale q % r.step q
  let within (distance reach : Nat) : Bool :=
    distance < reach || (r.closed && distance == reach)
  let down := within rest (r.below * r.scale q)
  let up := within (r.step q - rest) (r.above * r.scale q)
  if up && (!down || r.step q ≤ 2 * rest) then some (floor + 1)
  else if down then some floor
  else none

/-- A power of ten that is above the interval. -/
def top (r : RoundingInterval) : Nat :=
  let whole := (r.value + r.above) * Nat.pow 2 r.exponent.toNat / Nat.pow 2 (-r.exponent).toNat
  (Nat.toDigits 10 whole).length

/-- The decimal with the fewest digits: the multiple of the greatest power of ten that has one
in the interval.  The number itself is a multiple of the last power tried. -/
def shortest (r : RoundingInterval) : Decimal :=
  let last := (-r.exponent).toNat
  let found := (List.range (r.top + last + 1)).findSome? fun (i : Nat) =>
    let q : Int := r.top - i
    (r.candidate? q).map fun digits => (⟨digits, q⟩ : Decimal)
  found.getD ⟨r.value * Nat.pow 2 r.exponent.toNat * Nat.pow 5 last, -last⟩

theorem candidate?_within {r : RoundingInterval} {q : Int} {d : Nat}
    (h : r.candidate? q = some d) :
    r.value * r.scale q ≤ d * r.step q + r.below * r.scale q ∧
      d * r.step q ≤ r.value * r.scale q + r.above * r.scale q := by
  have hstep : 0 < r.step q :=
    Nat.mul_pos (Nat.pow_pos (by decide)) (Nat.pow_pos (by decide))
  have hdiv := Nat.div_add_mod (r.value * r.scale q) (r.step q)
  have hmod := Nat.mod_lt (r.value * r.scale q) hstep
  unfold candidate? at h
  generalize r.value * r.scale q / r.step q = floor at h hdiv
  generalize r.value * r.scale q % r.step q = rest at h hdiv hmod
  generalize r.value * r.scale q = v at hdiv ⊢
  generalize r.step q = s at h hdiv hmod ⊢
  generalize r.above * r.scale q = a at h ⊢
  generalize r.below * r.scale q = b at h ⊢
  simp only [Bool.and_eq_true, Bool.or_eq_true, Bool.not_eq_true', decide_eq_true_eq,
    beq_iff_eq] at h
  have hcomm : s * floor = floor * s := Nat.mul_comm s floor
  split at h
  · rename_i hup
    cases h
    rw [Nat.add_mul, Nat.one_mul]
    omega
  · split at h
    · rename_i hdown
      cases h
      omega
    · cases h

/-- A decimal is in the interval, its ends included. -/
def Holds (r : RoundingInterval) (d : Decimal) : Prop :=
  r.value * r.scale d.exponent ≤ d.digits * r.step d.exponent + r.below * r.scale d.exponent ∧
    d.digits * r.step d.exponent ≤ r.value * r.scale d.exponent + r.above * r.scale d.exponent

/-- The number itself, in the smallest power of ten that is tried. -/
theorem holds_last (r : RoundingInterval) :
    r.Holds ⟨r.value * Nat.pow 2 r.exponent.toNat * Nat.pow 5 (-r.exponent).toNat,
      -(-r.exponent).toNat⟩ := by
  generalize hlast : (-r.exponent).toNat = last
  have hscale : r.scale (-(last : Int)) = 2 ^ r.exponent.toNat * (2 ^ last * 5 ^ last) := by
    simp [scale, ← Nat.mul_pow]
  have hstep : r.step (-(last : Int)) = 2 ^ last := by
    simp [step, hlast]
  have hexact : r.value * 2 ^ r.exponent.toNat * 5 ^ last * r.step (-(last : Int)) =
      r.value * r.scale (-(last : Int)) := by
    rw [hscale, hstep, Nat.mul_assoc, Nat.mul_comm (5 ^ last), Nat.mul_assoc]
  exact ⟨hexact ▸ Nat.le_add_right _ _, Nat.le_trans (Nat.le_of_eq hexact) (Nat.le_add_right _ _)⟩

theorem shortest_within (r : RoundingInterval) : r.Holds r.shortest := by
  unfold shortest
  simp only
  cases hfound : (List.range (r.top + (-r.exponent).toNat + 1)).findSome? fun (i : Nat) =>
      (r.candidate? (r.top - i)).map fun digits => (⟨digits, r.top - i⟩ : Decimal) with
  | none => exact r.holds_last
  | some d =>
    obtain ⟨i, _, hi⟩ := List.exists_of_findSome?_eq_some hfound
    obtain ⟨digits, hdigits, rfl⟩ := Option.map_eq_some_iff.mp hi
    exact candidate?_within hdigits

end RoundingInterval

namespace Decimal

/-- A decimal in digits: with a point if its first digit stands between the fourth place
behind the point and the sixteenth before it, else with the power of ten of the first digit. -/
def chars (d : Decimal) : List Char :=
  let digits := Nat.toDigits 10 d.digits
  let first : Int := d.exponent + digits.length - 1
  if first < -4 ∨ 16 ≤ first then
    let fraction := if digits.length = 1 then [] else '.' :: digits.drop 1
    digits.take 1 ++ fraction ++ 'e' :: (toString first).toList
  else if 0 ≤ d.exponent then digits ++ List.replicate d.exponent.toNat '0' ++ ['.', '0']
  else
    let padded := List.replicate (-first).toNat '0' ++ digits
    let whole := (first + 1).toNat
    let point := if whole = 0 then 1 else whole
    padded.take point ++ '.' :: padded.drop point

end Decimal

/-- A floating-point number as text. -/
def FloatFormat.text (f : FloatFormat) (isNegative : Bool) (magnitude : Nat) : String :=
  if f.infinity < magnitude then "NaN"
  else
    let sign := if isNegative then "-" else ""
    if magnitude = f.infinity then sign ++ "inf"
    else if magnitude = 0 then sign ++ "0.0"
    else
      sign ++ String.ofList (RoundingInterval.ofMagnitude f magnitude).shortest.chars

def Binary32.text (x : Binary32) : String := FloatFormat.single.text x.isNegative x.magnitude

def Binary64.text (x : Binary64) : String := FloatFormat.double.text x.isNegative x.magnitude

end AcousticNode
