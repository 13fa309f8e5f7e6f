import Mathlib.Algebra.Order.Ring.Nat
import Mathlib.Data.List.Lex
import Mathlib.Order.Basic

/-!
# Numbers between dots

A version is a list of numbers, ordered component by component, and its text is the
decimals of the numbers with dots between them.  The order of the texts is that of the
versions, except where two versions part at numbers of different lengths: a text that
starts higher is then the greater one, though its number is smaller.
-/

namespace RerollSync.Support

/-! ## Lists in lexicographic order -/

section Lexicographic

variable {α : Type} [LT α] {a b r s : List α}

theorem append_lt_append_left_iff [Std.Irrefl ((· < ·) : α → α → Prop)] (l : List α) :
    l ++ a < l ++ b ↔ a < b := by
  induction l with
  | nil => rfl
  | cons x l ih => rw [List.cons_append, List.cons_append, List.cons_lt_cons_self, ih]

/-- Lists of one length that differ decide the order, whatever follows them. -/
theorem append_lt_append_iff (hlength : a.length = b.length) (hne : a ≠ b) :
    a ++ r < b ++ s ↔ a < b := by
  induction a generalizing b with
  | nil => exact absurd (List.length_eq_zero_iff.mp hlength.symm).symm hne
  | cons x a ih =>
      cases b with
      | nil => simp at hlength
      | cons y b =>
          rw [List.cons_append, List.cons_append, List.cons_lt_cons_iff, List.cons_lt_cons_iff]
          refine or_congr_right (and_congr_right fun heq => ?_)
          exact ih (by simpa using hlength) fun h => hne (by rw [heq, h])

end Lexicographic

/-! ## Decimals -/

/-- The decimals of a number. -/
def decimals (n : ℕ) : List Char := Nat.toDigits 10 n

theorem decimals_eq_append {n : ℕ} (h : 10 ≤ n) :
    decimals n = decimals (n / 10) ++ [(n % 10).digitChar] :=
  Nat.toDigits_of_base_le (by decide) h

theorem decimals_of_lt {n : ℕ} (h : n < 10) : decimals n = [n.digitChar] :=
  Nat.toDigits_of_lt_base h

theorem decimals_ne_nil (n : ℕ) : decimals n ≠ [] := Nat.toDigits_ne_nil

theorem isDigit_of_mem_decimals {n : ℕ} {c : Char} (h : c ∈ decimals n) : c.isDigit :=
  Nat.isDigit_of_mem_toDigits (by decide) (by decide) h

theorem decimals_injective : Function.Injective decimals := fun n m h => by
  simpa [decimals] using congrArg (Nat.ofDigitChars 10 · 0) h

theorem length_decimals_le_iff {n k : ℕ} (hk : 0 < k) : (decimals n).length ≤ k ↔ n < 10 ^ k :=
  Nat.length_toDigits_le_iff (by decide) hk

theorem length_decimals_pos (n : ℕ) : 0 < (decimals n).length :=
  List.length_pos_iff.mpr (decimals_ne_nil n)

theorem digitChar_lt_iff {d e : ℕ} (hd : d < 10) (he : e < 10) :
    d.digitChar < e.digitChar ↔ d < e := by
  rw [Char.lt_def, UInt32.lt_iff_toNat_lt]
  change d.digitChar.toNat < e.digitChar.toNat ↔ _
  rw [Nat.toNat_digitChar_of_lt_ten hd, Nat.toNat_digitChar_of_lt_ten he]
  omega

/-- A number with fewer decimals is smaller. -/
theorem lt_of_length_decimals_lt {n m : ℕ} (h : (decimals n).length < (decimals m).length) :
    n < m := by
  have hn := (length_decimals_le_iff (length_decimals_pos n)).mp le_rfl
  by_contra hle
  have := (length_decimals_le_iff (length_decimals_pos n)).mpr
    (lt_of_le_of_lt (Nat.le_of_not_lt hle) hn)
  omega

/-- Numbers with equally many decimals are ordered as these. -/
theorem decimals_lt_iff {n m : ℕ} (h : (decimals n).length = (decimals m).length) :
    decimals n < decimals m ↔ n < m := by
  induction n using Nat.strong_induction_on generalizing m with
  | _ n ih =>
      by_cases hn : n < 10
      · have hm : m < 10 := by
          have := (length_decimals_le_iff (n := m) (k := 1) (by decide)).mp
          rw [← h, decimals_of_lt hn] at this
          simpa using this
        rw [decimals_of_lt hn, decimals_of_lt hm, List.cons_lt_cons_iff, digitChar_lt_iff hn hm]
        simp
      · have hm : ¬m < 10 := fun hm => by
          have := (length_decimals_le_iff (n := n) (k := 1) (by decide)).mp
          rw [h, decimals_of_lt hm] at this
          exact hn (by simpa using this)
        rw [decimals_eq_append (Nat.le_of_not_lt hn),
          decimals_eq_append (Nat.le_of_not_lt hm)] at h ⊢
        have hlength : (decimals (n / 10)).length = (decimals (m / 10)).length := by simpa using h
        by_cases heq : n / 10 = m / 10
        · rw [heq, append_lt_append_left_iff, List.cons_lt_cons_iff,
            digitChar_lt_iff (Nat.mod_lt _ (by decide)) (Nat.mod_lt _ (by decide))]
          simp only [List.not_lt_nil, and_false, or_false]
          omega
        · rw [append_lt_append_iff hlength fun h => heq (decimals_injective h),
            ih (n / 10) (by omega) hlength]
          omega

/-- The first decimals of a number are those of a quotient. -/
theorem exists_decimals_eq_append {n k : ℕ} (h : k < (decimals n).length) :
    ∃ rest, rest.length = k ∧ (∀ c ∈ rest, c.isDigit) ∧
      decimals n = decimals (n / 10 ^ k) ++ rest := by
  induction k with
  | zero => exact ⟨[], rfl, by simp, by simp⟩
  | succ k ih =>
      obtain ⟨rest, hlength, hdigits, heq⟩ := ih (by omega)
      have hlarge : 10 ≤ n / 10 ^ k := by
        by_contra hsmall
        rw [heq, decimals_of_lt (Nat.lt_of_not_le hsmall)] at h
        simp only [List.length_append, List.length_singleton] at h
        omega
      refine ⟨(n / 10 ^ k % 10).digitChar :: rest, by simp [hlength], ?_, ?_⟩
      · rintro c (_ | ⟨_, hc⟩)
        · exact isDigit_of_mem_decimals (n := n / 10 ^ k)
            (by rw [decimals_eq_append hlarge]; simp)
        · exact hdigits c hc
      · rw [heq, decimals_eq_append hlarge, Nat.div_div_eq_div_mul, ← Nat.pow_succ]
        simp

/-! ## Versions -/

/-- The text of a version. -/
def dotted (version : List ℕ) : String := ".".intercalate (version.map toString)

/-- What follows the first number of a text. -/
def dottedTail : List ℕ → List Char
  | [] => []
  | n :: version => '.' :: (dotted (n :: version)).toList

theorem toList_dotted_cons (n : ℕ) (version : List ℕ) :
    (dotted (n :: version)).toList = decimals n ++ dottedTail version := by
  cases version with
  | nil => simp [dotted, dottedTail, decimals]
  | cons m version => simp [dotted, dottedTail, decimals, String.intercalate_cons_cons]

theorem toList_dotted_nil : (dotted []).toList = [] := rfl

theorem toList_dotted_ne_nil (n : ℕ) (version : List ℕ) : (dotted (n :: version)).toList ≠ [] := by
  rw [toList_dotted_cons]
  exact List.append_ne_nil_of_left_ne_nil (decimals_ne_nil n) _

/-- The empty text goes first. -/
theorem dotted_nil_lt (n : ℕ) (version : List ℕ) :
    (dotted []).toList < (dotted (n :: version)).toList := by
  obtain ⟨c, l, hc⟩ := List.exists_cons_of_ne_nil (toList_dotted_ne_nil n version)
  rw [toList_dotted_nil, hc]
  exact List.nil_lt_cons c l

theorem dottedTail_lt_iff {v w : List ℕ} :
    dottedTail v < dottedTail w ↔ (dotted v).toList < (dotted w).toList := by
  cases v with
  | nil =>
      cases w with
      | nil => rfl
      | cons m w => exact iff_of_true (List.nil_lt_cons _ _) (dotted_nil_lt m w)
  | cons n v =>
      cases w with
      | nil => exact iff_of_false (List.not_lt_nil _) (List.not_lt_nil _)
      | cons m w => rw [dottedTail, dottedTail, List.cons_lt_cons_self]

/-- Nothing that can follow a number goes before a digit. -/
theorem dottedTail_append_lt {v : List ℕ} {rest s : List Char} (hrest : rest ≠ [])
    (hdigits : ∀ c ∈ rest, c.isDigit) : dottedTail v < rest ++ s := by
  obtain ⟨c, l, rfl⟩ := List.exists_cons_of_ne_nil hrest
  cases v with
  | nil => simp [dottedTail]
  | cons n v =>
      rw [dottedTail, List.cons_append, List.cons_lt_cons_iff]
      refine Or.inl ?_
      have hdigit := hdigits c List.mem_cons_self
      rw [Char.lt_def, UInt32.lt_iff_toNat_lt]
      simp only [Char.isDigit, Bool.and_eq_true, decide_eq_true_eq, ge_iff_le,
        UInt32.le_iff_toNat_le] at hdigit
      exact lt_of_lt_of_le (by decide) hdigit.1

section Parting

variable {n m : ℕ} {v w : List ℕ}

/-- Where two texts part at numbers, the shorter number is compared with the first decimals
of the longer one, and goes first if these are equal. -/
theorem decimals_append_lt_iff (hne : n ≠ m)
    (hlength : (decimals n).length ≤ (decimals m).length) :
    (decimals n ++ dottedTail v < decimals m ++ dottedTail w ↔
      n ≤ m / 10 ^ ((decimals m).length - (decimals n).length)) ∧
    (decimals m ++ dottedTail w < decimals n ++ dottedTail v ↔
      m / 10 ^ ((decimals m).length - (decimals n).length) < n) := by
  have hpos := length_decimals_pos n
  obtain ⟨rest, hrest, hdigits, heq⟩ := exists_decimals_eq_append (n := m)
    (k := (decimals m).length - (decimals n).length) (by omega)
  have hfirst : (decimals (m / 10 ^ ((decimals m).length - (decimals n).length))).length =
      (decimals n).length := by
    have := congrArg List.length heq
    rw [List.length_append, hrest] at this
    omega
  generalize hk : (decimals m).length - (decimals n).length = k at *
  rw [heq, List.append_assoc]
  by_cases hfirsts : n = m / 10 ^ k
  · -- the longer number goes on with a digit, the shorter one with a dot or not at all
    have hgoes : rest ≠ [] := fun hnil => by
      subst hnil
      rw [List.append_nil] at heq
      exact hne (hfirsts.trans (decimals_injective heq).symm)
    rw [← hfirsts]
    have hlt : decimals n ++ dottedTail v < decimals n ++ (rest ++ dottedTail w) :=
      (append_lt_append_left_iff _).mpr (dottedTail_append_lt hgoes hdigits)
    exact ⟨iff_of_true hlt le_rfl, iff_of_false (List.lt_asymm hlt) (lt_irrefl n)⟩
  · have hdiffer : decimals n ≠ decimals (m / 10 ^ k) := fun h => hfirsts (decimals_injective h)
    rw [append_lt_append_iff hfirst.symm hdiffer, append_lt_append_iff hfirst hdiffer.symm,
      decimals_lt_iff hfirst.symm, decimals_lt_iff hfirst]
    exact ⟨⟨le_of_lt, fun hle => lt_of_le_of_ne hle hfirsts⟩, Iff.rfl⟩

end Parting

/-- Texts that start with different numbers differ. -/
theorem decimals_append_ne {n m : ℕ} {v w : List ℕ} (hne : n ≠ m) :
    decimals n ++ dottedTail v ≠ decimals m ++ dottedTail w := by
  intro heq
  rcases le_total (decimals n).length (decimals m).length with hle | hle
  · obtain ⟨hbefore, hafter⟩ := decimals_append_lt_iff (v := v) (w := w) hne hle
    rw [heq] at hbefore hafter
    have := mt hbefore.mpr (List.lt_irrefl _)
    have := mt hafter.mpr (List.lt_irrefl _)
    omega
  · obtain ⟨hbefore, hafter⟩ := decimals_append_lt_iff (v := w) (w := v) hne.symm hle
    rw [heq] at hbefore hafter
    have := mt hbefore.mpr (List.lt_irrefl _)
    have := mt hafter.mpr (List.lt_irrefl _)
    omega

theorem dottedTail_inj {v w : List ℕ} : dottedTail v = dottedTail w ↔ dotted v = dotted w := by
  rw [← String.toList_inj]
  cases v with
  | nil =>
      cases w with
      | nil => exact iff_of_true rfl rfl
      | cons m w =>
          exact iff_of_false (List.cons_ne_nil _ _).symm (toList_dotted_ne_nil m w).symm
  | cons n v =>
      cases w with
      | nil => exact iff_of_false (List.cons_ne_nil _ _) (toList_dotted_ne_nil n v)
      | cons m w => rw [dottedTail, dottedTail, List.cons_inj_right]

theorem dotted_injective : Function.Injective dotted := by
  intro v
  induction v with
  | nil =>
      intro w heq
      cases w with
      | nil => rfl
      | cons m w => exact absurd (congrArg String.toList heq).symm (toList_dotted_ne_nil m w)
  | cons n v ih =>
      intro w heq
      have hlist := congrArg String.toList heq
      cases w with
      | nil => exact absurd hlist (toList_dotted_ne_nil n v)
      | cons m w =>
          rw [toList_dotted_cons, toList_dotted_cons] at hlist
          by_cases hne : n = m
          · subst hne
            rw [ih (dottedTail_inj.mp (List.append_cancel_left hlist))]
          · exact absurd hlist (decimals_append_ne hne)

/-- A number that is shorter than `m` is at most the first decimals of `m`. -/
def StartsBelow (n m : ℕ) : Prop :=
  (decimals n).length < (decimals m).length →
    n ≤ m / 10 ^ ((decimals m).length - (decimals n).length)

/-- Where the two versions part, the shorter number is at most the first decimals of the
longer one. -/
def Aligned : List ℕ → List ℕ → Prop
  | n :: v, m :: w => if n = m then Aligned v w else StartsBelow n m ∧ StartsBelow m n
  | _, _ => True

/-- Numbers of one length are ordered as their texts, the others if the shorter one does not
start higher. -/
theorem decimals_append_lt_iff_lt {n m : ℕ} {v w : List ℕ} (hne : n ≠ m) :
    (decimals n ++ dottedTail v < decimals m ++ dottedTail w ↔ n < m) ↔
      StartsBelow n m ∧ StartsBelow m n := by
  rcases lt_trichotomy (decimals n).length (decimals m).length with hlt | heq | hgt
  · rw [(decimals_append_lt_iff hne hlt.le).1, iff_true_right (lt_of_length_decimals_lt hlt)]
    exact ⟨fun h => ⟨fun _ => h, fun h' => absurd h' hlt.not_gt⟩, fun h => h.1 hlt⟩
  · rw [(decimals_append_lt_iff hne heq.le).1, heq, Nat.sub_self, Nat.pow_zero, Nat.div_one]
    refine iff_of_true ⟨fun h => lt_of_le_of_ne h hne, le_of_lt⟩ ⟨fun h => ?_, fun h => ?_⟩
    · exact absurd h heq.not_lt
    · exact absurd h heq.not_gt
  · rw [(decimals_append_lt_iff hne.symm hgt.le).2,
      iff_false_right (lt_of_length_decimals_lt hgt).not_gt, not_lt]
    exact ⟨fun h => ⟨fun h' => absurd h' hgt.not_gt, fun _ => h⟩, fun h => h.2 hgt⟩

/-- The texts of two versions are ordered as the versions exactly when these are aligned. -/
theorem dotted_lt_dotted_iff (v w : List ℕ) :
    (dotted v < dotted w ↔ v < w) ↔ Aligned v w := by
  rw [String.lt_iff]
  induction v generalizing w with
  | nil =>
      cases w with
      | nil =>
          exact iff_of_true (iff_of_false (List.lt_irrefl _) (List.not_lt_nil _)) trivial
      | cons m w =>
          exact iff_of_true (iff_of_true (dotted_nil_lt m w) (List.nil_lt_cons m w)) trivial
  | cons n v ih =>
      cases w with
      | nil =>
          exact iff_of_true (iff_of_false (List.not_lt_nil _) (List.not_lt_nil _)) trivial
      | cons m w =>
          rw [toList_dotted_cons, toList_dotted_cons, Aligned]
          by_cases heq : n = m
          · subst heq
            rw [append_lt_append_left_iff, dottedTail_lt_iff, List.cons_lt_cons_self, if_pos rfl]
            exact ih w
          · rw [if_neg heq, ← decimals_append_lt_iff_lt (v := v) (w := w) heq,
              List.cons_lt_cons_iff]
            simp [heq]

end RerollSync.Support
