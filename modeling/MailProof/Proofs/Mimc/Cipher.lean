import MailProof.Mimc
import MailProof.Proofs.Curve.Field

/-! The cipher as a keyed permutation. Five does not divide the order of the multiplicative group,
so every element has exactly one fifth root and each round can be undone. -/

namespace MailProof.Mimc

open Fin.CommRing

/-- Inverse of the power of a round, modulo the order of the multiplicative group. -/
def rootExponent : Nat := (4 * (scalarOrder - 1) + 1) / exponent

private theorem exponent_mul_rootExponent :
    exponent * rootExponent = 4 * (scalarOrder - 1) + 1 := by decide

private theorem fifthPower_eq_pow (x : Scalar) : fifthPower x = x ^ exponent := by
  rw [fifthPower, exponent]
  ring

def fifthRoot (x : Scalar) : Scalar := x ^ rootExponent

private theorem fifthRoot_fifthPower (x : Scalar) : fifthRoot (fifthPower x) = x := by
  rw [fifthRoot, fifthPower_eq_pow, ← pow_mul, exponent_mul_rootExponent]
  exact Residue.pow_cycle scalarOrder_prime x 4

private theorem fifthPower_fifthRoot (x : Scalar) : fifthPower (fifthRoot x) = x := by
  rw [fifthRoot, fifthPower_eq_pow, ← pow_mul, mul_comm, exponent_mul_rootExponent]
  exact Residue.pow_cycle scalarOrder_prime x 4

section Rounds

variable (constants : List Scalar) (key : Scalar)

/-- The message before a round. -/
def undoRound (constant after : Scalar) : Scalar := fifthRoot after - constant - key

private theorem undoRound_round (constant before : Scalar) :
    undoRound key constant (fifthPower (before + key + constant)) = before := by
  rw [undoRound, fifthRoot_fifthPower]
  ring

private theorem round_undoRound (constant after : Scalar) :
    fifthPower (undoRound key constant after + key + constant) = after := by
  have inner : undoRound key constant after + key + constant = fifthRoot after := by
    rw [undoRound]
    ring
  rw [inner, fifthPower_fifthRoot]

/-- Decrypt: take the key off and undo the rounds from the last to the first. -/
def decrypt (constants : List Scalar) (cipher key : Scalar) : Scalar :=
  constants.foldr (undoRound key) (cipher - key)

private theorem decrypt_encrypt (message : Scalar) :
    decrypt constants (encrypt constants message key) key = message := by
  rw [decrypt, encrypt, add_sub_cancel_right]
  induction constants generalizing message with
  | nil => rfl
  | cons constant constants ih => rw [List.foldr_cons, List.foldl_cons, ih, undoRound_round]

private theorem encrypt_decrypt (cipher : Scalar) :
    encrypt constants (decrypt constants cipher key) key = cipher := by
  have rounds (after : Scalar) :
      constants.foldl (fun m constant => fifthPower (m + key + constant))
        (constants.foldr (undoRound key) after) = after := by
    induction constants with
    | nil => rfl
    | cons constant constants ih => rw [List.foldr_cons, List.foldl_cons, round_undoRound, ih]
  rw [decrypt, encrypt, rounds, sub_add_cancel]

/-- The permutation of the field under a key. -/
def permutation : Equiv.Perm Scalar where
  toFun message := encrypt constants message key
  invFun cipher := decrypt constants cipher key
  left_inv := decrypt_encrypt constants key
  right_inv := encrypt_decrypt constants key

/-- Under every key and for all round constants, encryption is a bijection of the field onto itself,
and it is undone by the rounds in reverse. -/
theorem encrypt_permutes :
    Function.Bijective (fun message => encrypt constants message key) ∧
    ∀ message cipher, encrypt constants message key = cipher ↔
      message = decrypt constants cipher key :=
  ⟨(permutation constants key).bijective,
    fun _ _ => (permutation constants key).eq_symm_apply.symm⟩

end Rounds

end MailProof.Mimc
