import MailProof.Proofs.Binary
import Mathlib.Data.List.Prime
import Mathlib.NumberTheory.LucasPrimality
import Mathlib.Tactic.NormNum.Prime

/-! The field orders are prime. A prime is certified by a root of full order and by the
primes that divide its predecessor, which are certified in turn. -/

namespace MailProof

/-- Square-and-multiply on numbers, which keeps to remainders. -/
def powerModulo (n base exponent : Nat) : Nat :=
  (binaryDigits exponent).foldl
    (fun product digit =>
      let square := product * product % n
      if digit then square * base % n else square) 1

private theorem cast_powerModulo (n base exponent : Nat) :
    ((powerModulo n base exponent : Nat) : ZMod n) = (base : ZMod n) ^ exponent := by
  have one : ((1 : Nat) : ZMod n) = 1 := Nat.cast_one
  rw [← power_eq_pow, power, powerAlong, powerModulo, ← one]
  refine (List.foldl_hom (fun k : Nat => (k : ZMod n)) fun product digit => ?_).symm
  cases digit <;> simp

/-- A number with a root, and factors some power of which the predecessor divides. -/
structure PrimeCertificate where
  number : Nat
  root : Nat
  factors : List Nat
  exponent : Nat

namespace PrimeCertificate

/-- The root has full order, given that the factors are prime. -/
structure Valid (certificate : PrimeCertificate) : Prop where
  covered : certificate.number - 1 ∣ certificate.factors.prod ^ certificate.exponent
  full : powerModulo certificate.number certificate.root (certificate.number - 1) %
    certificate.number = 1 % certificate.number
  proper : ∀ factor ∈ certificate.factors,
    powerModulo certificate.number certificate.root ((certificate.number - 1) / factor) %
      certificate.number ≠ 1 % certificate.number

instance (certificate : PrimeCertificate) : Decidable certificate.Valid :=
  decidable_of_iff (_ ∧ _ ∧ _) ⟨fun ⟨covered, full, proper⟩ => ⟨covered, full, proper⟩,
    fun ⟨covered, full, proper⟩ => ⟨covered, full, proper⟩⟩

theorem Valid.prime {certificate : PrimeCertificate} (valid : certificate.Valid)
    (primes : ∀ factor ∈ certificate.factors, factor.Prime) : certificate.number.Prime := by
  have power_eq_one_iff (exponent : Nat) : (certificate.root : ZMod certificate.number) ^ exponent = 1 ↔
      powerModulo certificate.number certificate.root exponent % certificate.number =
        1 % certificate.number := by
    rw [← cast_powerModulo, ← Nat.cast_one, ZMod.natCast_eq_natCast_iff']
  apply lucas_primality certificate.number certificate.root
  · exact (power_eq_one_iff _).mpr valid.full
  · intro factor prime divides
    have member := mem_list_primes_of_dvd_prod prime.prime
      (fun other present => (primes other present).prime)
      (prime.dvd_of_dvd_pow (divides.trans valid.covered))
    exact fun one => valid.proper factor member ((power_eq_one_iff _).mp one)

/-- Each certificate is valid, and its factors are known or have a later certificate. -/
def Complete (known : List Nat) : List PrimeCertificate → Prop
  | [] => True
  | certificate :: rest => certificate.Valid ∧
    (∀ factor ∈ certificate.factors, factor ∈ known ++ rest.map number) ∧ Complete known rest

instance decidableComplete (known : List Nat) :
    (certificates : List PrimeCertificate) → Decidable (Complete known certificates)
  | [] => inferInstanceAs (Decidable True)
  | _ :: rest =>
    have := decidableComplete known rest
    inferInstanceAs (Decidable (_ ∧ _ ∧ _))

theorem Complete.prime {known : List Nat} (primes : ∀ p ∈ known, p.Prime)
    {certificates : List PrimeCertificate} (complete : Complete known certificates) :
    ∀ p ∈ certificates.map number, p.Prime := by
  induction certificates with
  | nil => nofun
  | cons certificate rest ih =>
    obtain ⟨valid, covered, others⟩ := complete
    have later := ih others
    refine List.forall_mem_cons.mpr ⟨valid.prime fun factor member => ?_, later⟩
    exact (List.mem_append.mp (covered factor member)).elim (primes factor) (later factor)

end PrimeCertificate

/-- Primes that divide the predecessors of certified ones. -/
def smallPrimes : List Nat :=
  [2, 3, 5, 7, 11, 13, 19, 29, 41, 67, 73, 83, 89, 107, 229, 311, 379, 661, 823, 853, 911, 983,
    1637, 3557, 3691, 4999, 11003, 13327, 93001, 237073, 327599, 1593227, 1853641, 4562087]

private theorem smallPrimes_prime : ∀ p ∈ smallPrimes, p.Prime := by
  norm_num [smallPrimes]

/-- Certificates of both orders and of their large factors, largest first. -/
def orderCertificates : List PrimeCertificate :=
  [⟨baseOrder, 3, [2, 3, 13, 29, 67, 229, 311, 983, 11003, 405928799, 11465965001,
      13427688667394608761327070753331941386769], 2⟩,
    ⟨scalarOrder, 5, [2, 3, 13, 29, 983, 11003, 237073, 405928799, 1670836401704629,
      13818364434197438864469338081], 28⟩,
    ⟨13427688667394608761327070753331941386769, 17,
      [2, 3, 7, 11, 1853641, 4562087, 173171039, 2480874801745591], 4⟩,
    ⟨13818364434197438864469338081, 3, [2, 5, 823, 1593227, 65865678001877903], 5⟩,
    ⟨65865678001877903, 5, [2, 83, 379, 1637, 639533339], 1⟩,
    ⟨2480874801745591, 6, [2, 3, 5, 19, 41, 35385462869], 2⟩,
    ⟨1670836401704629, 2, [2, 3, 5156902474397], 4⟩,
    ⟨5156902474397, 2, [2, 107, 12048837557], 2⟩,
    ⟨35385462869, 2, [2, 7, 1263766531], 2⟩,
    ⟨12048837557, 2, [2, 7, 661, 93001], 2⟩,
    ⟨11465965001, 3, [2, 5, 7, 327599], 4⟩,
    ⟨1263766531, 10, [2, 3, 5, 13, 911, 3557], 1⟩,
    ⟨639533339, 2, [2, 229, 853, 1637], 1⟩,
    ⟨405928799, 22, [2, 11, 3691, 4999], 1⟩,
    ⟨173171039, 13, [2, 73, 89, 13327], 1⟩]

private theorem orderCertificates_prime : ∀ p ∈ orderCertificates.map (·.number), p.Prime :=
  PrimeCertificate.Complete.prime smallPrimes_prime (by decide +kernel)

theorem scalarOrder_prime : scalarOrder.Prime :=
  orderCertificates_prime scalarOrder (.tail _ (.head _))

theorem baseOrder_prime : baseOrder.Prime :=
  orderCertificates_prime baseOrder (.head _)

end MailProof
