import Mathlib.Tactic
import Mathlib.Data.Int.Log

/-!
# Whole numbers and doubles

A number is a whole number without bound or a double: a rational with 53
significant bits. A sum with a double in it is rounded to the nearest double, ties
to the even one.
-/
namespace PromptForge.Numbers

def halfEven (x : ℚ) : ℤ :=
  let k := ⌊x⌋
  if x - k < 1 / 2 then k else if 1 / 2 < x - k then k + 1 else k + k % 2

lemma le_halfEven {k : ℤ} {x : ℚ} (h : (k : ℚ) ≤ x) : k ≤ halfEven x := by
  have hk : k ≤ ⌊x⌋ := Int.le_floor.2 h
  unfold halfEven
  dsimp only
  split
  · exact hk
  · split <;> omega

lemma halfEven_le {k : ℤ} {x : ℚ} (h : x ≤ k) : halfEven x ≤ k := by
  have hlow := Int.floor_le x
  have hfloor : ⌊x⌋ ≤ k := by exact_mod_cast hlow.trans h
  rcases hfloor.lt_or_eq with hlt | heq
  · unfold halfEven
    dsimp only
    split
    · exact hfloor
    · split <;> omega
  · unfold halfEven
    dsimp only
    have hzero : x - ⌊x⌋ < 1 / 2 := by
      rw [heq] at hlow ⊢
      linarith
    rw [if_pos hzero]
    exact hfloor

lemma halfEven_int (k : ℤ) : halfEven (k : ℚ) = k :=
  le_antisymm (halfEven_le le_rfl) (le_halfEven le_rfl)

/-- The exponent of the last place of the doubles around `q`. -/
def grid (q : ℚ) : ℤ := max (Int.log 2 |q| - 52) (-1074)

def nearest (q : ℚ) : ℚ := halfEven (q / 2 ^ grid q) * 2 ^ grid q

lemma two_zpow_pos (e : ℤ) : (0 : ℚ) < 2 ^ e := zpow_pos (by norm_num) e

lemma abs_lt_two_zpow (q : ℚ) : |q| < 2 ^ (grid q + 53) := by
  have hlog : |q| < (2 : ℚ) ^ (Int.log 2 |q| + 1) := by
    exact_mod_cast Int.lt_zpow_succ_log_self (by norm_num : 1 < 2) |q|
  refine hlog.trans_le (zpow_le_zpow_right₀ (by norm_num) ?_)
  have := le_max_left (Int.log 2 |q| - 52) (-1074)
  unfold grid
  omega

lemma nearest_of_multiple {q : ℚ} {m : ℤ} {e : ℤ} (hq : q = m * 2 ^ e) (he : grid q ≤ e) :
    nearest q = q := by
  have hsplit : (2 : ℚ) ^ e = 2 ^ (e - grid q).toNat * 2 ^ grid q := by
    rw [← zpow_natCast, ← zpow_add₀ (by norm_num)]
    congr 1
    omega
  have hint : q / 2 ^ grid q = ((m * 2 ^ (e - grid q).toNat : ℤ) : ℚ) := by
    rw [div_eq_iff (two_zpow_pos _).ne']
    conv_lhs => rw [hq, hsplit]
    push_cast
    ring
  unfold nearest
  rw [hint, halfEven_int, ← hint]
  exact div_mul_cancel₀ q (two_zpow_pos _).ne'

lemma grid_le {q : ℚ} {e : ℤ} (hq : |q| < 2 ^ (e + 53)) (he : -1074 ≤ e) (hne : q ≠ 0) : grid q ≤ e := by
  refine max_le ?_ he
  have hlog : Int.log 2 |q| < e + 53 := by
    refine (Int.lt_zpow_iff_log_lt (by norm_num) (abs_pos.2 hne)).1 ?_
    exact_mod_cast hq
  omega

lemma nearest_zero : nearest 0 = 0 := by
  unfold nearest
  rw [zero_div]
  have := halfEven_int 0
  rw [Int.cast_zero] at this
  rw [this, Int.cast_zero, zero_mul]

lemma nearest_of_bits_lt {m e : ℤ} (hm : |m| < 2 ^ 53) (he : -1074 ≤ e) :
    nearest (m * 2 ^ e) = m * 2 ^ e := by
  by_cases hzero : (m : ℚ) * 2 ^ e = 0
  · rw [hzero, nearest_zero]
  · refine nearest_of_multiple rfl (grid_le ?_ he hzero)
    rw [abs_mul, abs_of_pos (two_zpow_pos e), add_comm e, zpow_add₀ (by norm_num)]
    refine mul_lt_mul_of_pos_right ?_ (two_zpow_pos e)
    exact_mod_cast hm

lemma nearest_of_bits {m e : ℤ} (hm : |m| ≤ 2 ^ 53) (he : -1074 ≤ e) :
    nearest (m * 2 ^ e) = m * 2 ^ e := by
  rcases hm.lt_or_eq with hlt | heq
  · exact nearest_of_bits_lt hlt he
  · -- the next power of two is a double of the next binade
    obtain ⟨k, hk, rfl⟩ : ∃ k : ℤ, |k| < 2 ^ 53 ∧ m = k * 2 := by
      rcases abs_eq (by norm_num : (0 : ℤ) ≤ 2 ^ 53) |>.1 heq with rfl | rfl
      · exact ⟨2 ^ 52, by norm_num, by norm_num⟩
      · exact ⟨-2 ^ 52, by norm_num, by norm_num⟩
    have hshift : ((k * 2 : ℤ) : ℚ) * 2 ^ e = k * 2 ^ (e + 1) := by
      rw [zpow_add_one₀ (by norm_num)]
      push_cast
      ring
    rw [hshift]
    exact nearest_of_bits_lt hk (by omega)

lemma nearest_nearest (q : ℚ) : nearest (nearest q) = nearest q := by
  have hlt : |q / 2 ^ grid q| < 2 ^ 53 := by
    rw [abs_div, abs_of_pos (two_zpow_pos _), div_lt_iff₀ (two_zpow_pos _)]
    have := abs_lt_two_zpow q
    rwa [add_comm, zpow_add₀ (by norm_num)] at this
  obtain ⟨hlow, hhigh⟩ := abs_lt.1 hlt
  refine nearest_of_bits (abs_le.2 ⟨le_halfEven ?_, halfEven_le ?_⟩) (le_max_right _ _)
  · push_cast
    exact hlow.le
  · push_cast
    exact hhigh.le

lemma le_nearest {d q : ℚ} (hd : nearest d = d) (h : d ≤ q) : d ≤ nearest q := by
  rcases le_or_gt (grid q) (grid d) with hg | hg
  · have hint : d = ((halfEven (d / 2 ^ grid d) * 2 ^ (grid d - grid q).toNat : ℤ) : ℚ) * 2 ^ grid q := by
      conv_lhs => rw [← hd]
      unfold nearest
      have hsplit : (2 : ℚ) ^ grid d = 2 ^ (grid d - grid q).toNat * 2 ^ grid q := by
        rw [← zpow_natCast, ← zpow_add₀ (by norm_num)]
        congr 1
        omega
      rw [hsplit]
      push_cast
      ring
    generalize (halfEven (d / 2 ^ grid d) * 2 ^ (grid d - grid q).toNat : ℤ) = k at hint
    have hk : k ≤ halfEven (q / 2 ^ grid q) := by
      refine le_halfEven ?_
      rw [le_div_iff₀ (two_zpow_pos _), ← hint]
      exact h
    rw [hint]
    unfold nearest
    exact mul_le_mul_of_nonneg_right (by exact_mod_cast hk) (two_zpow_pos _).le
  · -- `q` lies in a higher binade, which begins with a double
    have hlog : grid q = Int.log 2 |q| - 52 := by
      have := le_max_right (Int.log 2 |d| - 52) (-1074)
      unfold grid at hg ⊢
      omega
    by_cases hne : q = 0
    · rw [hne] at h ⊢
      rwa [nearest_zero]
    have hq : (2 : ℚ) ^ Int.log 2 |q| ≤ |q| := by
      exact_mod_cast Int.zpow_log_le_self (by norm_num : 1 < 2) (abs_pos.2 hne)
    have hd' : |d| < (2 : ℚ) ^ Int.log 2 |q| := by
      by_cases hzero : d = 0
      · rw [hzero, abs_zero]
        exact two_zpow_pos _
      · have hlt : Int.log 2 |d| < Int.log 2 |q| := by
          have := le_max_left (Int.log 2 |d| - 52) (-1074)
          unfold grid at hg hlog
          omega
        exact_mod_cast (Int.lt_zpow_iff_log_lt (by norm_num : 1 < 2) (abs_pos.2 hzero)).2 hlt
    have hpos : 0 < q := by
      by_contra hneg
      have habs := abs_of_nonpos (not_lt.1 hneg)
      have := neg_abs_le d
      linarith
    have hbinade : (2 : ℚ) ^ Int.log 2 |q| = 2 ^ 52 * 2 ^ grid q := by
      rw [← zpow_natCast, ← zpow_add₀ (by norm_num)]
      congr 1
      rw [hlog]
      push_cast
      ring
    have hk : (2 ^ 52 : ℤ) ≤ halfEven (q / 2 ^ grid q) := by
      refine le_halfEven ?_
      rw [le_div_iff₀ (two_zpow_pos _), Int.cast_pow, Int.cast_ofNat, ← hbinade]
      exact hq.trans (abs_of_pos hpos).le
    have hnear : (2 : ℚ) ^ Int.log 2 |q| ≤ nearest q := by
      rw [hbinade]
      unfold nearest
      refine mul_le_mul_of_nonneg_right ?_ (two_zpow_pos _).le
      exact_mod_cast hk
    exact (le_abs_self d).trans (hd'.le.trans hnear)

abbrev Double := { q : ℚ // nearest q = q }

def Double.ofRat (q : ℚ) : Double := ⟨nearest q, nearest_nearest q⟩

inductive Number where
  | int (n : ℤ)
  | float (x : Double)
deriving DecidableEq

namespace Number

def toRat : Number → ℚ
  | .int n => n
  | .float x => x.val

def toDouble : Number → Double
  | .int n => Double.ofRat n
  | .float x => x

def add : Number → Number → Number
  | .int m, .int n => .int (m + n)
  | a, b => .float (Double.ofRat (a.toDouble.val + b.toDouble.val))

def sub : Number → Number → Number
  | .int m, .int n => .int (m - n)
  | a, b => .float (Double.ofRat (a.toDouble.val - b.toDouble.val))

instance : Preorder Number := Preorder.lift toRat
instance : DecidableLE Number := fun a b => inferInstanceAs (Decidable (a.toRat ≤ b.toRat))
instance : DecidableLT Number := fun a b => inferInstanceAs (Decidable (a.toRat < b.toRat))

lemma le_of_not_lt {a b : Number} (h : ¬ a < b) : b ≤ a := not_lt.1 fun hlt : a.toRat < b.toRat => h hlt

def max (a b : Number) : Number := if a < b then b else a

lemma le_max_left (a b : Number) : a ≤ a.max b := by
  unfold Number.max
  split
  · rename_i h
    exact h.le
  · exact le_refl a

lemma le_max_right (a b : Number) : b ≤ a.max b := by
  unfold Number.max
  split
  · exact le_refl b
  · rename_i h
    exact le_of_not_lt h

lemma le_add_int (a : Number) {n : ℤ} (hn : 0 ≤ n) : a ≤ a.add (.int n) := by
  cases a with
  | int m =>
    change (m : ℚ) ≤ ((m + n : ℤ) : ℚ)
    exact_mod_cast le_add_of_nonneg_right hn
  | float x =>
    change x.val ≤ nearest (x.val + nearest n)
    refine le_nearest x.property (le_add_of_nonneg_right ?_)
    exact le_nearest nearest_zero (by exact_mod_cast hn)

end Number

end PromptForge.Numbers
