import Mathlib

/-!
# C strings and fixed arrays of bytes

An array is the list of its bytes. `strcmp` scans two arrays as the C function
does, and answers `none` where the scan would leave one of them; so do `strncmp` and
`strlen`. `load` is the content of a zeroed array into which some bytes were read, `text`
what C takes an array to say: the bytes before its first NUL.
-/

namespace CString

def strcmp : List UInt8 → List UInt8 → Option Int
  | a :: as, b :: bs =>
    if a = b then if a = 0 then some 0 else strcmp as bs
    else some ((a.toNat : Int) - b.toNat)
  | _, _ => none

def strncmp : List UInt8 → List UInt8 → ℕ → Option Int
  | _, _, 0 => some 0
  | a :: as, b :: bs, n + 1 =>
    if a = b then if a = 0 then some 0 else strncmp as bs n
    else some ((a.toNat : Int) - b.toNat)
  | _, _, _ + 1 => none

def strlen : List UInt8 → Option ℕ
  | [] => none
  | b :: bs => if b = 0 then some 0 else (strlen bs).map (· + 1)

/-- `memcmp(a, b, n) == 0`, for two arrays of at least `n` bytes. -/
def memEqual (a b : List UInt8) (n : ℕ) : Bool := a.take n == b.take n

/-- `memcpy(dst, src, length of src)`. -/
def memcpy (dst src : List UInt8) : List UInt8 := src ++ dst.drop src.length

def zeros (n : ℕ) : List UInt8 := List.replicate n 0

def load (n : ℕ) (bytes : List UInt8) : List UInt8 := memcpy (zeros n) bytes

def text (buf : List UInt8) : List UInt8 := buf.takeWhile (· ≠ 0)

def literal (w : List UInt8) : List UInt8 := w ++ [0]

def NulFree (w : List UInt8) : Prop := ∀ b ∈ w, b ≠ 0

instance (w : List UInt8) : Decidable (NulFree w) := List.decidableBAll (· ≠ 0) w

@[simp] theorem length_zeros (n : ℕ) : (zeros n).length = n := List.length_replicate

theorem length_memcpy {dst src : List UInt8} (h : src.length ≤ dst.length) :
    (memcpy dst src).length = dst.length := by
  simp only [memcpy, List.length_append, List.length_drop]
  omega

theorem prefix_memcpy (dst src : List UInt8) : src <+: memcpy dst src := List.prefix_append _ _

theorem length_load {n : ℕ} {bytes : List UInt8} (h : bytes.length ≤ n) :
    (load n bytes).length = n := by
  rw [load, length_memcpy (by simpa using h), length_zeros]

theorem load_eq (n : ℕ) (bytes : List UInt8) :
    load n bytes = bytes ++ zeros (n - bytes.length) := by
  simp [load, memcpy, zeros]

theorem strcmp_literal_iff {w : List UInt8} (hw : NulFree w) (buf : List UInt8) :
    strcmp (literal w) buf = some 0 ↔ literal w <+: buf := by
  induction w generalizing buf with
  | nil =>
    cases buf with
    | nil => simp [literal, strcmp]
    | cons b bs =>
      by_cases hb : (0 : UInt8) = b
      · subst hb
        simp [literal, strcmp]
      · have hne : ((0 : UInt8).toNat : Int) - b.toNat ≠ 0 := by
          intro h
          exact hb (UInt8.toNat_inj.mp (by omega))
        simpa [literal, strcmp, hb] using hne
  | cons a as ih =>
    have ha : a ≠ 0 := hw a (by simp)
    have has : NulFree as := fun b hb => hw b (by simp [hb])
    cases buf with
    | nil => simp [literal, strcmp]
    | cons b bs =>
      by_cases hb : a = b
      · subst hb
        have hrec := ih has bs
        simp only [literal] at hrec
        simp [literal, strcmp, ha, hrec, List.cons_prefix_cons]
      · have hne : ((a.toNat : Int) - b.toNat) ≠ 0 := by
          intro h
          exact hb (UInt8.toNat_inj.mp (by omega))
        simp [literal, strcmp, hb, hne, List.cons_prefix_cons]

theorem literal_prefix_iff_text {w : List UInt8} (hw : NulFree w) (buf : List UInt8) :
    literal w <+: buf ↔ text buf = w ∧ w.length < buf.length := by
  induction w generalizing buf with
  | nil =>
    cases buf with
    | nil => simp [literal, text]
    | cons b bs =>
      by_cases hb : b = 0
      · simp [literal, text, hb]
      · simp [literal, text, hb, Ne.symm hb]
  | cons a as ih =>
    have ha : a ≠ 0 := hw a (by simp)
    have hrec := fun bs => ih (fun b hb => hw b (by simp [hb])) bs
    cases buf with
    | nil => simp [literal]
    | cons b bs =>
      simp only [literal, text] at hrec ⊢
      by_cases hb : a = b
      · subst hb
        simp [List.cons_prefix_cons, hrec, ha]
      · by_cases hb0 : b = 0
        · subst hb0
          simp [List.cons_prefix_cons, ha]
        · simp [List.cons_prefix_cons, hb, Ne.symm hb, hb0]

@[simp] theorem text_append_zeros (bytes : List UInt8) (k : ℕ) :
    text (bytes ++ zeros k) = text bytes := by
  induction bytes with
  | nil => cases k <;> simp [text, zeros, List.replicate_succ]
  | cons b bs ih =>
    simp only [text] at ih
    by_cases hb : b = 0
    · simp [text, hb]
    · simpa [text, hb] using ih

@[simp] theorem text_load (n : ℕ) (bytes : List UInt8) : text (load n bytes) = text bytes := by
  rw [load_eq, text_append_zeros]

theorem strcmp_load {w : List UInt8} (hw : NulFree w) {n : ℕ} {bytes : List UInt8}
    (hn : bytes.length ≤ n) (hwn : w.length < n) :
    strcmp (literal w) (load n bytes) = some 0 ↔ text bytes = w := by
  rw [strcmp_literal_iff hw, literal_prefix_iff_text hw, text_load, length_load hn]
  exact and_iff_left hwn

theorem strlen_isSome_iff (buf : List UInt8) : (strlen buf).isSome = true ↔ 0 ∈ buf := by
  induction buf with
  | nil => simp [strlen]
  | cons b bs ih =>
    rw [strlen]
    by_cases hb : b = 0
    · simp [hb]
    · rw [if_neg hb, Option.isSome_map, ih]
      simp [Ne.symm hb]

theorem strcmp_isSome {w : List UInt8} {buf : List UInt8} (h : w.length < buf.length) :
    (strcmp (literal w) buf).isSome = true := by
  induction w generalizing buf with
  | nil =>
    cases buf with
    | nil => cases h
    | cons b bs =>
      by_cases hb : (0 : UInt8) = b
      · simp [literal, strcmp, hb]
      · simp [literal, strcmp, hb]
  | cons a as ih =>
    cases buf with
    | nil => cases h
    | cons b bs =>
      have hrec := ih (Nat.lt_of_succ_lt_succ h)
      rw [literal, List.cons_append, strcmp]
      split_ifs
      · rfl
      · exact hrec
      · rfl

theorem strncmp_one (a b : UInt8) (as bs : List UInt8) :
    strncmp (a :: as) (b :: bs) 1 = if a = b then some 0 else some ((a.toNat : Int) - b.toNat) := by
  simp [strncmp]

theorem strncmp_one_iff (a b : UInt8) (as bs : List UInt8) :
    strncmp (a :: as) (b :: bs) 1 = some 0 ↔ a = b := by
  rw [strncmp_one]
  split_ifs with hab
  · exact iff_of_true rfl hab
  · refine iff_of_false (fun h => hab ?_) hab
    have hdiff := Option.some.inj h
    exact UInt8.toNat_inj.mp (by omega)

theorem zero_mem_load_iff {n : ℕ} {bytes : List UInt8} (h : bytes.length ≤ n) :
    0 ∈ load n bytes ↔ ¬ (bytes.length = n ∧ 0 ∉ bytes) := by
  have hzeros : (0 : UInt8) ∈ zeros (n - bytes.length) ↔ bytes.length < n := by
    simp [zeros]
    omega
  rw [load_eq, List.mem_append, hzeros]
  by_cases hzero : (0 : UInt8) ∈ bytes
  · simp [hzero]
  · simp only [hzero, false_or, not_false_eq_true, and_true]
    omega

theorem memEqual_iff {a b : List UInt8} {n : ℕ} (hb : b.length = n) :
    memEqual a b n = true ↔ b <+: a := by
  subst hb
  simp only [memEqual, beq_iff_eq, List.take_length]
  rw [List.prefix_iff_eq_take, eq_comm]

theorem prefix_memcpy_zeros_iff {p : List UInt8} {x : UInt8} (hx : x ≠ 0) {n : ℕ}
    (src : List UInt8) : p ++ [x] <+: memcpy (zeros n) src ↔ p ++ [x] <+: src := by
  refine ⟨fun h => ?_, fun h => h.trans (prefix_memcpy _ _)⟩
  have hsrc := prefix_memcpy (zeros n) src
  rcases List.prefix_or_prefix_of_prefix h hsrc with hp | hp
  · exact hp
  · obtain ⟨t, ht⟩ := hp
    rcases List.eq_nil_or_concat t with rfl | ⟨t', y, rfl⟩
    · rw [List.append_nil] at ht
      exact ht ▸ List.prefix_rfl
    · have hy : y = x := by
        have := congrArg List.getLast? ht
        simpa using this
      have hz : y ∈ zeros n := by
        rw [← ht] at h
        have hm := (List.prefix_append_right_inj src).mp h
        exact List.drop_subset _ _ (hm.subset (by simp))
      exact absurd ((List.eq_of_mem_replicate hz).symm.trans hy) (Ne.symm hx)

end CString
