/-
Cyclic redundancy checks of any width. A string of bits is a polynomial over `ZMod 2`, its first bit at the highest
power; the shift register of a check holds a remainder by the generator, and no nonzero burst that fits the register is
a multiple of a generator with a constant term.
-/
import Mathlib.Algebra.CharP.Two
import Mathlib.Algebra.Field.ZMod
import Mathlib.Algebra.Polynomial.Div
import Mathlib.Data.List.GetD
import Mathlib.RingTheory.AdjoinRoot

namespace Crc

open Polynomial

/-! ## Bits as coefficients -/

/-- The polynomial of a string of bits. -/
noncomputable def ofBits : List Bool → (ZMod 2)[X]
  | [] => 0
  | b :: l => (if b then X ^ l.length else 0) + ofBits l

/-- The bits of a word, most significant first. -/
def bits {n : Nat} (v : BitVec n) : List Bool := (List.ofFn fun i : Fin n => v.getLsbD i).reverse

/-- The polynomial of a word. -/
noncomputable def poly {n : Nat} (v : BitVec n) : (ZMod 2)[X] := ofBits (bits v)

/-- The polynomial of a message of words. -/
noncomputable def message {w : Nat} (bs : List (BitVec w)) : (ZMod 2)[X] := ofBits (bs.flatMap bits)

@[simp] theorem length_bits {n : Nat} (v : BitVec n) : (bits v).length = n := by
  unfold bits
  rw [List.length_reverse, List.length_ofFn]

theorem ofBits_append (a b : List Bool) : ofBits (a ++ b) = ofBits a * X ^ b.length + ofBits b := by
  induction a with
  | nil => rw [List.nil_append, ofBits, zero_mul, zero_add]
  | cons c a ih =>
    rw [List.cons_append, ofBits, ofBits, ih, List.length_append, pow_add]
    split <;> ring

theorem degree_ofBits_lt (l : List Bool) : (ofBits l).degree < l.length := by
  induction l with
  | nil =>
    rw [ofBits, degree_zero]
    exact WithBot.bot_lt_coe 0
  | cons b l ih =>
    have hsucc : ((l.length : Nat) : WithBot Nat) < ((b :: l).length : Nat) := by
      rw [List.length_cons]
      exact_mod_cast Nat.lt_succ_self l.length
    apply lt_of_le_of_lt (degree_add_le _ _)
    apply max_lt
    · split
      · rw [degree_X_pow]
        exact hsucc
      · rw [degree_zero]
        exact WithBot.bot_lt_coe _
    · exact ih.trans hsucc

/-- The coefficient of a bit. -/
theorem coeff_bit_inj {a b : Bool} (h : (if a then 1 else 0 : ZMod 2) = if b then 1 else 0) : a = b := by
  cases a <;> cases b <;> first | rfl | exact absurd h (by decide)

theorem coeff_ite_X_pow (b : Bool) (n i : Nat) :
    (if b then X ^ n else 0 : (ZMod 2)[X]).coeff i = if i = n then if b then 1 else 0 else 0 := by
  cases b
  · simp
  · simp [coeff_X_pow]

theorem coeff_ofBits (l : List Bool) (i : Nat) : (ofBits l).coeff i = if l.reverse.getD i false then 1 else 0 := by
  induction l with
  | nil => rfl
  | cons b l ih =>
    rw [ofBits, coeff_add, coeff_ite_X_pow, ih, List.reverse_cons]
    rcases lt_trichotomy i l.length with hlt | rfl | hgt
    · rw [List.getD_append _ _ _ _ (by rwa [List.length_reverse])]
      rw [if_neg hlt.ne, zero_add]
    · rw [List.getD_append_right _ _ _ _ (by rw [List.length_reverse]), List.length_reverse, Nat.sub_self,
        List.getD_eq_default _ _ (by rw [List.length_reverse])]
      cases b <;> simp
    · rw [List.getD_eq_default _ _ (by rw [List.length_reverse]; exact hgt.le),
        List.getD_eq_default _ _ (by rw [List.length_append, List.length_reverse]; exact hgt)]
      rw [if_neg hgt.ne', zero_add]

/-- Strings of one length are known by their polynomials. -/
theorem ofBits_inj : ∀ {a b : List Bool}, a.length = b.length → ofBits a = ofBits b → a = b
  | [], [], _, _ => rfl
  | x :: a, y :: b, hlen, h => by
    have hlen' : a.length = b.length := Nat.succ.inj hlen
    have hzero : ∀ l : List Bool, (ofBits l).coeff l.length = 0 := fun l =>
      coeff_eq_zero_of_degree_lt (degree_ofBits_lt l)
    -- the highest power tells the first bits
    have hxy : x = y := by
      have hcoeff := congrArg (fun p => p.coeff a.length) h
      simp only [ofBits, coeff_add, hzero a] at hcoeff
      rw [hlen', hzero b, add_zero, add_zero] at hcoeff
      apply coeff_bit_inj
      rwa [coeff_ite_X_pow, coeff_ite_X_pow, if_pos rfl, if_pos rfl] at hcoeff
    subst hxy
    rw [ofBits, ofBits, hlen'] at h
    rw [ofBits_inj hlen' (add_left_cancel h)]

theorem message_nil {w : Nat} : message ([] : List (BitVec w)) = 0 := rfl

theorem message_cons {w : Nat} (b : BitVec w) (bs : List (BitVec w)) :
    message (b :: bs) = poly b * X ^ (w * bs.length) + message bs := by
  unfold message poly
  rw [List.flatMap_cons, ofBits_append, List.length_flatMap]
  simp only [length_bits, List.map_const', List.sum_replicate, smul_eq_mul, Nat.mul_comm]

/-! ## The register -/

section

variable {n w : Nat}

theorem coeff_poly (v : BitVec n) (i : Nat) : (poly v).coeff i = if v.getLsbD i then 1 else 0 := by
  unfold poly bits
  rw [coeff_ofBits, List.reverse_reverse, List.getD_eq_getElem?_getD, List.getElem?_ofFn]
  by_cases hi : i < n
  · rw [dif_pos hi]
    rfl
  · rw [dif_neg hi, BitVec.getLsbD_of_ge v i (Nat.le_of_not_lt hi)]
    rfl

theorem degree_poly_lt (v : BitVec n) : (poly v).degree < n := by
  have h := degree_ofBits_lt (bits v)
  rwa [length_bits] at h

theorem poly_xor (r s : BitVec n) : poly (r ^^^ s) = poly r + poly s := by
  ext i
  rw [coeff_add, coeff_poly, coeff_poly, coeff_poly, BitVec.getLsbD_xor]
  cases r.getLsbD i <;> cases s.getLsbD i <;> decide

theorem poly_zero : poly (0 : BitVec n) = 0 := by
  ext i
  rw [coeff_poly]
  simp

/-- A shift loses the bit at the top. -/
theorem X_mul_poly (r : BitVec n) : X * poly r = poly (r <<< 1) + if r.msb then X ^ n else 0 := by
  ext i
  rw [coeff_add, coeff_poly, BitVec.getLsbD_shiftLeft, coeff_ite_X_pow]
  cases i with
  | zero =>
    rw [coeff_X_mul_zero]
    cases n with
    | zero =>
      obtain rfl := BitVec.eq_nil r
      simp
    | succ n => simp
  | succ i =>
    rw [coeff_X_mul, coeff_poly]
    rcases lt_trichotomy (i + 1) n with hlt | rfl | hgt
    · simp [hlt, hlt.ne]
    · simp [BitVec.msb_eq_getLsbD_last]
    · simp [BitVec.getLsbD_of_ge r i (by omega), hgt.not_gt, hgt.ne']

/-- A word that enters at the top. -/
theorem poly_setWidth_shiftLeft (v : BitVec w) (hw : w ≤ n) : poly (v.setWidth n <<< (n - w)) = X ^ (n - w) * poly v := by
  ext i
  rw [coeff_X_pow_mul', coeff_poly, coeff_poly, BitVec.getLsbD_shiftLeft, BitVec.getLsbD_setWidth]
  by_cases hi : n - w ≤ i
  · rw [if_pos hi]
    by_cases hlt : i < n
    · have hsub : i - (n - w) < n := by omega
      simp [hlt, hsub, Nat.not_lt.2 hi]
    · rw [BitVec.getLsbD_of_ge v _ (by omega)]
      simp
  · rw [if_neg hi]
    simp [Nat.lt_of_not_le hi]

/-! ## Division -/

/-- The generator with the coefficients `g` below its leading term, for which the register has no bit. -/
noncomputable def gen (g : BitVec n) : (ZMod 2)[X] := X ^ n + poly g

/-- One shift, with the generator taken off when a bit leaves the register. -/
def shift (g r : BitVec n) : BitVec n := if r.msb then (r <<< 1) ^^^ g else r <<< 1

/-- A word of the message. -/
def feed (g : BitVec n) (r : BitVec n) (b : BitVec w) : BitVec n := (shift g)^[w] (r ^^^ (b.setWidth n <<< (n - w)))

/-- The register after a message. -/
def run (g : BitVec n) (r : BitVec n) (bs : List (BitVec w)) : BitVec n := bs.foldl (feed g) r

theorem run_nil (g r : BitVec n) : run g r ([] : List (BitVec w)) = r := rfl

theorem run_cons (g r : BitVec n) (b : BitVec w) (bs : List (BitVec w)) : run g r (b :: bs) = run g (feed g r b) bs := rfl

variable {g : BitVec n}

theorem monic_gen (g : BitVec n) : (gen g).Monic := monic_X_pow_add (degree_poly_lt g)

theorem degree_gen (g : BitVec n) : (gen g).degree = n := by
  unfold gen
  rw [add_comm, degree_add_eq_right_of_degree_lt (by rw [degree_X_pow]; exact degree_poly_lt g), degree_X_pow]

/-- A shift multiplies by `X`. -/
theorem mk_shift (g r : BitVec n) : AdjoinRoot.mk (gen g) (poly (shift g r)) = AdjoinRoot.mk (gen g) (X * poly r) := by
  rw [X_mul_poly]
  unfold shift
  split
  · rw [poly_xor, AdjoinRoot.mk_eq_mk]
    -- the leading term and the rest of the generator are the generator, twice
    refine ⟨1, ?_⟩
    rw [mul_one, gen, CharTwo.sub_eq_add, add_add_add_comm, CharTwo.add_self_eq_zero, zero_add, add_comm]
  · rw [add_zero]

theorem mk_shifts (g : BitVec n) : ∀ (k : Nat) (r : BitVec n),
    AdjoinRoot.mk (gen g) (poly ((shift g)^[k] r)) = AdjoinRoot.mk (gen g) (X ^ k * poly r)
  | 0, r => by rw [Function.iterate_zero, id_eq, pow_zero, one_mul]
  | k + 1, r => by
    rw [Function.iterate_succ_apply, mk_shifts g k, map_mul, mk_shift, ← map_mul, ← mul_assoc, ← pow_succ]

theorem mk_feed (hw : w ≤ n) (g r : BitVec n) (b : BitVec w) :
    AdjoinRoot.mk (gen g) (poly (feed g r b)) = AdjoinRoot.mk (gen g) (X ^ w * poly r + X ^ n * poly b) := by
  unfold feed
  rw [mk_shifts, poly_xor, poly_setWidth_shiftLeft b hw, mul_add, ← mul_assoc, ← pow_add, Nat.add_sub_cancel' hw]

/-- Over the words of a message. -/
theorem mk_run (hw : w ≤ n) (g : BitVec n) (bs : List (BitVec w)) : ∀ r : BitVec n,
    AdjoinRoot.mk (gen g) (poly (run g r bs)) =
      AdjoinRoot.mk (gen g) (poly r * X ^ (w * bs.length) + message bs * X ^ n) := by
  induction bs with
  | nil =>
    intro r
    rw [run_nil, message_nil, List.length_nil, mul_zero, pow_zero, mul_one, zero_mul, add_zero]
  | cons b bs ih =>
    intro r
    have halg : (X ^ w * poly r + X ^ n * poly b) * X ^ (w * bs.length) + message bs * X ^ n =
        poly r * X ^ (w * (bs.length + 1)) + (poly b * X ^ (w * bs.length) + message bs) * X ^ n := by
      rw [mul_add_one, pow_add]
      ring
    rw [run_cons, ih, map_add, map_mul, mk_feed hw, ← map_mul, ← map_add, halg, message_cons, List.length_cons]

/-- From a cleared register: the remainder of the message, moved up by the width of the register. -/
theorem poly_run (hw : w ≤ n) (g : BitVec n) (bs : List (BitVec w)) :
    poly (run g 0 bs) = (message bs * X ^ n) %ₘ gen g := by
  have h := mk_run hw g bs 0
  rw [poly_zero, zero_mul, zero_add] at h
  have hmod := congrArg (AdjoinRoot.modByMonicHom (monic_gen g)) h
  rw [AdjoinRoot.modByMonicHom_mk, AdjoinRoot.modByMonicHom_mk,
    (modByMonic_eq_self_iff (monic_gen g)).2 (by rw [degree_gen]; exact degree_poly_lt _)] at hmod
  exact hmod

/-! ## Bursts -/

/-- Two strings of bits that differ, and only within `k` consecutive bits. -/
def Burst (k : Nat) (xs ys : List Bool) : Prop :=
  ∃ pre e e' post, xs = pre ++ e ++ post ∧ ys = pre ++ e' ++ post ∧ e.length = e'.length ∧ e.length ≤ k ∧ e ≠ e'

theorem Burst.of_drop {k i : Nat} {xs ys : List Bool} (hlen : xs.length = ys.length) (htake : xs.take i = ys.take i)
    (hdrop : xs.drop (i + k) = ys.drop (i + k)) (hne : xs ≠ ys) : Burst k xs ys := by
  have hsplit : ∀ l : List Bool, l = l.take i ++ (l.drop i).take k ++ l.drop (i + k) := fun l => by
    rw [List.append_assoc, ← List.drop_drop, List.take_append_drop, List.take_append_drop]
  refine ⟨xs.take i, (xs.drop i).take k, (ys.drop i).take k, xs.drop (i + k), hsplit xs, ?_, ?_, ?_, ?_⟩
  · rw [htake, hdrop]
    exact hsplit ys
  · rw [List.length_take, List.length_take, List.length_drop, List.length_drop, hlen]
  · exact List.length_take_le _ _
  · intro he
    apply hne
    rw [hsplit xs, hsplit ys, htake, he, hdrop]

/-- What differs is a short polynomial at some power. -/
theorem Burst.sub_eq {k : Nat} {xs ys : List Bool} (h : Burst k xs ys) :
    ∃ p : (ZMod 2)[X], ∃ i, ofBits xs - ofBits ys = p * X ^ i ∧ p.degree < k ∧ p ≠ 0 := by
  obtain ⟨pre, e, e', post, rfl, rfl, hlen, hk, hne⟩ := h
  refine ⟨ofBits e - ofBits e', post.length, ?_, ?_, fun h => hne (ofBits_inj hlen (sub_eq_zero.1 h))⟩
  · simp only [ofBits_append, hlen]
    ring
  · have hek : ((e.length : Nat) : WithBot Nat) ≤ (k : Nat) := by exact_mod_cast hk
    apply lt_of_lt_of_le _ hek
    apply lt_of_le_of_lt (degree_sub_le _ _)
    exact max_lt (degree_ofBits_lt e) (by rw [hlen]; exact degree_ofBits_lt e')

/-- With a constant term the generator has no factor `X`. -/
theorem isCoprime_gen_X_pow (hg : g.getLsbD 0 = true) (i : Nat) : IsCoprime (gen g) (X ^ i) := by
  have hn : n ≠ 0 := by
    rintro rfl
    rw [BitVec.getLsbD_of_ge g 0 le_rfl] at hg
    cases hg
  have hcoeff : (gen g).coeff 0 = 1 := by
    unfold gen
    rw [coeff_add, coeff_poly, hg, coeff_X_pow, if_neg hn.symm, zero_add]
    rfl
  obtain ⟨q, hq⟩ := X_dvd_sub_C (p := gen g)
  rw [hcoeff, map_one, sub_eq_iff_eq_add] at hq
  apply IsCoprime.pow_right
  refine ⟨1, -q, ?_⟩
  rw [hq]
  ring

/-- The check sees every burst that fits the register. -/
theorem run_ne_of_burst (hw : w ≤ n) (hg : g.getLsbD 0 = true) {bs bs' : List (BitVec w)}
    (h : Burst n (bs.flatMap bits) (bs'.flatMap bits)) : run g 0 bs ≠ run g 0 bs' := by
  intro heq
  obtain ⟨p, i, hp, hdeg, hne⟩ := h.sub_eq
  have hrem : (message bs * X ^ n) %ₘ gen g = (message bs' * X ^ n) %ₘ gen g := by
    rw [← poly_run hw, heq, poly_run hw]
  -- equal remainders: the generator divides the difference, and of that the burst
  have hdvd : gen g ∣ (message bs - message bs') * X ^ n := by
    rw [← modByMonic_eq_zero_iff_dvd (monic_gen g), sub_mul, sub_modByMonic, hrem, sub_self]
  have hmsg : gen g ∣ p * X ^ i := by
    rw [← hp]
    exact (isCoprime_gen_X_pow hg n).dvd_of_dvd_mul_right hdvd
  have hburst : gen g ∣ p := (isCoprime_gen_X_pow hg i).dvd_of_dvd_mul_right hmsg
  exact hne (eq_zero_of_dvd_of_degree_lt hburst (by rw [degree_gen]; exact hdeg))

end

end Crc
