import Mathlib.Data.List.Basic

/-!
# Decoding UTF-8

Bytes are decoded one after the other; a byte that no character can have next is
replaced, together with the start of the character it breaks off. Decoding in two
parts is decoding at once if the first part ends with a whole character.
-/

namespace Utf8

/-- A character that is not complete: how many bytes it needs and what the next may be. -/
structure Pending where
  needed : ℕ
  lower : ℕ
  upper : ℕ
  bits : ℕ

def replacement : Char := Char.ofNat 0xFFFD

/-- A byte between two characters. -/
def start (byte : ℕ) : List Char × Option Pending :=
  if byte < 0x80 then ([Char.ofNat byte], none)
  else if 0xC2 ≤ byte ∧ byte ≤ 0xDF then ([], some ⟨1, 0x80, 0xBF, byte - 0xC0⟩)
  else if 0xE0 ≤ byte ∧ byte ≤ 0xEF then
    let lower := if byte = 0xE0 then 0xA0 else 0x80
    let upper := if byte = 0xED then 0x9F else 0xBF
    ([], some ⟨2, lower, upper, byte - 0xE0⟩)
  else if 0xF0 ≤ byte ∧ byte ≤ 0xF4 then
    let lower := if byte = 0xF0 then 0x90 else 0x80
    let upper := if byte = 0xF4 then 0x8F else 0xBF
    ([], some ⟨3, lower, upper, byte - 0xF0⟩)
  else ([replacement], none)

/-- The characters that a byte completes, and what is not complete behind it. -/
def step : Option Pending → ℕ → List Char × Option Pending
  | none, byte => start byte
  | some pending, byte =>
    if pending.lower ≤ byte ∧ byte ≤ pending.upper then
      let bits := pending.bits * 64 + (byte - 0x80)
      if pending.needed = 1 then ([Char.ofNat bits], none)
      else ([], some ⟨pending.needed - 1, 0x80, 0xBF, bits⟩)
    else (replacement :: (start byte).1, (start byte).2)

def pendingAfter : Option Pending → List UInt8 → Option Pending
  | pending, [] => pending
  | pending, byte :: rest => pendingAfter (step pending byte.toNat).2 rest

def decodeFrom : Option Pending → List UInt8 → List Char
  | none, [] => []
  | some _, [] => [replacement]
  | pending, byte :: rest =>
    (step pending byte.toNat).1 ++ decodeFrom (step pending byte.toNat).2 rest

def decode (bytes : List UInt8) : List Char := decodeFrom none bytes

/-- The bytes do not end inside a character. -/
def EndsWhole (bytes : List UInt8) : Prop := pendingAfter none bytes = none

instance (bytes : List UInt8) : Decidable (EndsWhole bytes) := inferInstanceAs (Decidable (_ = _))

private theorem decodeFrom_append (pending : Option Pending) (earlier later : List UInt8)
    (whole : pendingAfter pending earlier = none) :
    decodeFrom pending (earlier ++ later) =
      decodeFrom pending earlier ++ decodeFrom none later := by
  induction earlier generalizing pending with
  | nil =>
    obtain rfl : pending = none := whole
    rfl
  | cons byte rest inductionHypothesis =>
    have decoded := inductionHypothesis (step pending byte.toNat).2 whole
    simp [decodeFrom, decoded]

theorem decode_append {earlier : List UInt8} (whole : EndsWhole earlier) (later : List UInt8) :
    decode (earlier ++ later) = decode earlier ++ decode later :=
  decodeFrom_append none earlier later whole

end Utf8
