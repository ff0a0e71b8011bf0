import Mathlib.Data.List.Basic

/-!
# Percent-decoding

Each escape stands for one byte, which is taken as the character with its number; a percent sign
that two hexadecimal digits do not follow stands for itself.
-/

namespace Url

def hexValue (c : Char) : Option Nat :=
  if c.isDigit then some (c.toNat - 0x30)
  else if 'a' ≤ c.toLower ∧ c.toLower ≤ 'f' then some (c.toLower.toNat - 0x57)
  else none

def byteOf (high low : Char) : Option Char :=
  match hexValue high, hexValue low with
  | some h, some l => some (Char.ofNat (16 * h + l))
  | _, _ => none

/-- Every escape decoded once. -/
def percentDecode : List Char → List Char
  | '%' :: high :: low :: rest =>
    match byteOf high low with
    | some c => c :: percentDecode rest
    | none => '%' :: percentDecode (high :: low :: rest)
  | c :: rest => c :: percentDecode rest
  | [] => []

@[simp] theorem percentDecode_nil : percentDecode [] = [] := rfl

theorem percentDecode_cons_of_ne {c : Char} {rest : List Char} (h : c ≠ '%') :
    percentDecode (c :: rest) = c :: percentDecode rest := by
  rw [percentDecode]
  intro high low tail heq
  exact absurd heq h

/-- Text without a percent sign is left as it is. -/
theorem percentDecode_append {plain : List Char} (rest : List Char) (h : '%' ∉ plain) :
    percentDecode (plain ++ rest) = plain ++ percentDecode rest := by
  induction plain with
  | nil => rfl
  | cons c plain ih =>
    have hc : c ≠ '%' := fun heq ↦ h (heq ▸ List.mem_cons_self)
    have hplain : '%' ∉ plain := fun hmem ↦ h (List.mem_cons_of_mem _ hmem)
    rw [List.cons_append, percentDecode_cons_of_ne hc, ih hplain, List.cons_append]

end Url
