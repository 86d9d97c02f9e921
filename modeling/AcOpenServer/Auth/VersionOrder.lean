import AcOpenServer.Auth.Version

namespace AcOpenServer
open Library
set_option autoImplicit true

/-- The operators say how `x` and `y` compare. -/
structure Compares [LT α] (lt gt equals : Bool) (x y : α) : Prop where
  lt : lt = true ↔ x < y
  gt : gt = true ↔ y < x
  equals : equals = true ↔ x = y

namespace AcvVersion

/-- The operator `==`. -/
def equals (a b : AcvVersion) : Bool :=
  a.release == b.release && a.major == b.major && a.minor == b.minor && a.patch == b.patch

/-- Lists are ordered lexicographically. -/
def fields (v : AcvVersion) : List UInt8 := [v.release, v.major, v.minor, v.patch]

variable {a b c : AcvVersion}

theorem equals_iff : a.equals b = true ↔ a = b := by
  cases a
  cases b
  simp only [equals, Bool.and_eq_true, beq_iff_eq, mk.injEq, and_assoc]

theorem lt_iff_toInt : a.lt b = true ↔ a.toInt32.toInt < b.toInt32.toInt := by
  rw [lt, decide_eq_true_eq, Int32.lt_iff_toInt_lt]

theorem gt_eq (a b : AcvVersion) : a.gt b = b.lt a := rfl

theorem lt_trans (hab : a.lt b = true) (hbc : b.lt c = true) : a.lt c = true := by
  rw [lt_iff_toInt] at *
  exact Int.lt_trans hab hbc

theorem toNat_eq (v : AcvVersion) : v.toUInt32.toNat =
    v.release.toNat * 2 ^ 24 + v.major.toNat * 2 ^ 16 + v.minor.toNat * 2 ^ 8 + v.patch.toNat :=
  ByteHelper.toNat_toUInt32 _ _ _ _

theorem release_lt_iff (v : AcvVersion) :
    v.release.toNat < 128 ↔ v.toUInt32.toNat < 2 ^ 31 := by
  have hmajor := v.major.toNat_lt
  have hminor := v.minor.toNat_lt
  have hpatch := v.patch.toNat_lt
  rw [toNat_eq]
  omega

/-- From 2 ^ 31 on the number is negative. -/
theorem toInt_eq (v : AcvVersion) : v.toInt32.toInt =
    if v.toUInt32.toNat < 2 ^ 31 then (v.toUInt32.toNat : Int)
    else v.toUInt32.toNat - (2 ^ 32 : Nat) := by
  have hcond : v.toInt32.toInt =
      if 2 * v.toUInt32.toNat < 2 ^ 32 then (v.toUInt32.toNat : Int)
      else v.toUInt32.toNat - (2 ^ 32 : Nat) :=
    BitVec.toInt_eq_toNat_cond _
  rw [hcond]
  exact if_congr (by omega) rfl rfl

theorem fields_lt_iff : a.fields < b.fields ↔ a.toUInt32.toNat < b.toUInt32.toNat := by
  have ha := toNat_eq a
  have hb := toNat_eq b
  have hamajor := a.major.toNat_lt
  have haminor := a.minor.toNat_lt
  have hapatch := a.patch.toNat_lt
  have hbmajor := b.major.toNat_lt
  have hbminor := b.minor.toNat_lt
  have hbpatch := b.patch.toNat_lt
  simp only [fields, List.cons_lt_cons_iff, UInt8.lt_iff_toNat_lt, ← UInt8.toNat_inj,
    List.not_lt_nil, and_false, or_false]
  omega

theorem fields_inj : a.fields = b.fields ↔ a = b := by
  refine ⟨?_, congrArg fields⟩
  intro h
  cases a
  cases b
  simpa only [fields, List.cons.injEq, and_true, mk.injEq] using h

/-- The operators follow the fields exactly if no sign comes between them. -/
theorem compares_iff :
    Compares (a.lt b) (a.gt b) (a.equals b) a.fields b.fields ↔
      (a.release.toNat < 128 ↔ b.release.toNat < 128) := by
  have ha := toInt_eq a
  have hb := toInt_eq b
  have hasmall := a.toUInt32.toNat_lt
  have hbsmall := b.toUInt32.toNat_lt
  rw [release_lt_iff, release_lt_iff]
  constructor
  · intro h
    have hlt := h.lt
    have hgt := h.gt
    rw [lt_iff_toInt, fields_lt_iff] at hlt
    rw [gt_eq, lt_iff_toInt, fields_lt_iff] at hgt
    omega
  · intro hsign
    constructor
    · rw [lt_iff_toInt, fields_lt_iff]
      omega
    · rw [gt_eq, lt_iff_toInt, fields_lt_iff]
      omega
    · rw [equals_iff, fields_inj]

end AcvVersion

namespace AcvAppVersion

/-- The operator `==`. -/
def equals (a b : AcvAppVersion) : Bool := a.unk00 == b.unk00 && a.version.equals b.version

variable {a b c : AcvAppVersion} {u v : UInt64}

theorem equals_iff : a.equals b = true ↔ a = b := by
  cases a
  cases b
  simp only [equals, Bool.and_eq_true, beq_iff_eq, AcvVersion.equals_iff, mk.injEq]

theorem gt_eq (a b : AcvAppVersion) : a.gt b = b.lt a := rfl

theorem lt_iff_parts :
    a.lt b = true ↔ a.unk00 < b.unk00 ∧ a.version.lt b.version = true := by
  rw [lt, Bool.and_eq_true, decide_eq_true_eq]

theorem lt_trans (hab : a.lt b = true) (hbc : b.lt c = true) : a.lt c = true := by
  rw [lt_iff_parts] at *
  exact ⟨UInt32.lt_trans hab.1 hbc.1, AcvVersion.lt_trans hab.2 hbc.2⟩

/-- The upper half of a version, and the lower half as a signed number. -/
def upper (u : UInt64) : UInt32 := (u >>> 32).toUInt32

def lower (u : UInt64) : Int32 := u.toUInt32.toInt32

theorem unk00_new (u : UInt64) : (new u).unk00 = upper u := by
  have hnumber := number_new u
  have hlower := (new u).version.toUInt32.toNat_lt
  have hupper := (new u).unk00.toNat_lt
  apply UInt32.toNat_inj.1
  rw [upper, UInt64.toNat_toUInt32, UInt64.toNat_shiftRight, Nat.shiftRight_eq_div_pow]
  rw [number] at hnumber
  have hshift : (32 : UInt64).toNat % 64 = 32 := rfl
  rw [hshift]
  omega

theorem version_new (u : UInt64) : (new u).version.toInt32 = lower u := by
  have hnumber := number_new u
  have hlower := (new u).version.toUInt32.toNat_lt
  have hversion : (new u).version.toUInt32 = u.toUInt32 := by
    apply UInt32.toNat_inj.1
    rw [UInt64.toNat_toUInt32, ← hnumber, number]
    omega
  exact congrArg UInt32.toInt32 hversion

theorem lt_new_iff : (new u).lt (new v) = true ↔ upper u < upper v ∧ lower u < lower v := by
  rw [lt_iff_parts, AcvVersion.lt, decide_eq_true_eq, unk00_new, unk00_new, version_new,
    version_new]

theorem equals_new_iff : (new u).equals (new v) = true ↔ u = v := by
  rw [equals_iff]
  refine ⟨?_, congrArg new⟩
  intro h
  have hnumber := congrArg number h
  rw [number_new, number_new] at hnumber
  exact UInt64.toNat_inj.1 hnumber

theorem lt_of_lt_new (h : (new u).lt (new v) = true) : u < v := by
  have hnumber := number_lt_of_lt h
  rw [number_new, number_new] at hnumber
  exact UInt64.lt_iff_toNat_lt.2 hnumber

/-- Both halves of two different versions differ, and in the same direction. -/
def Comparable (u v : UInt64) : Prop :=
  u = v ∨ (upper u < upper v ∧ lower u < lower v) ∨ (upper v < upper u ∧ lower v < lower u)

theorem compares_iff :
    Compares ((new u).lt (new v)) ((new u).gt (new v)) ((new u).equals (new v)) u v ↔
      Comparable u v := by
  rw [Comparable, ← lt_new_iff, ← lt_new_iff, gt_eq]
  constructor
  · intro h
    rcases Nat.lt_trichotomy u.toNat v.toNat with hlt | heq | hgt
    · exact .inr (.inl (h.lt.2 (UInt64.lt_iff_toNat_lt.2 hlt)))
    · exact .inl (UInt64.toNat_inj.1 heq)
    · exact .inr (.inr (h.gt.2 (UInt64.lt_iff_toNat_lt.2 hgt)))
  · intro h
    refine ⟨⟨lt_of_lt_new, ?_⟩, ⟨lt_of_lt_new, ?_⟩, equals_new_iff⟩
    · intro hless
      rcases h with rfl | hlt | hgt
      · exact absurd hless (UInt64.lt_irrefl u)
      · exact hlt
      · exact absurd (lt_of_lt_new hgt) (UInt64.lt_asymm hless)
    · intro hmore
      rcases h with rfl | hlt | hgt
      · exact absurd hmore (UInt64.lt_irrefl u)
      · exact absurd (lt_of_lt_new hlt) (UInt64.lt_asymm hmore)
      · exact hgt

theorem count_iff :
    [(new u).lt (new v), (new u).gt (new v), (new u).equals (new v)].count true = 1 ↔
      Comparable u v := by
  have hbelow : ¬ ((new u).lt (new v) = true ∧ (new v).lt (new u) = true) :=
    fun h => UInt64.lt_asymm (lt_of_lt_new h.1) (lt_of_lt_new h.2)
  have hsame : (new u).equals (new v) = true →
      ¬ (new u).lt (new v) = true ∧ ¬ (new v).lt (new u) = true := by
    intro h
    obtain rfl := equals_new_iff.1 h
    exact ⟨fun h => UInt64.lt_irrefl u (lt_of_lt_new h),
      fun h => UInt64.lt_irrefl u (lt_of_lt_new h)⟩
  rw [Comparable, ← lt_new_iff, ← lt_new_iff, ← equals_new_iff, gt_eq]
  generalize (new u).lt (new v) = lt, (new v).lt (new u) = gt, (new u).equals (new v) = equals at *
  revert lt gt equals
  decide

end AcvAppVersion

theorem versions_ordered_iff (u v w : UInt64) (a b : AcvVersion) :
    (Compares ((AcvAppVersion.new u).lt (.new v)) ((AcvAppVersion.new u).gt (.new v))
        ((AcvAppVersion.new u).equals (.new v)) u v ↔ AcvAppVersion.Comparable u v) ∧
      ([(AcvAppVersion.new u).lt (.new v), (AcvAppVersion.new u).gt (.new v),
          (AcvAppVersion.new u).equals (.new v)].count true = 1 ↔ AcvAppVersion.Comparable u v) ∧
      ((AcvAppVersion.new u).lt (.new v) = true → (AcvAppVersion.new v).lt (.new w) = true →
        (AcvAppVersion.new u).lt (.new w) = true) ∧
      (Compares (a.lt b) (a.gt b) (a.equals b) a.fields b.fields ↔
        (a.release.toNat < 128 ↔ b.release.toNat < 128)) :=
  ⟨AcvAppVersion.compares_iff, AcvAppVersion.count_iff, AcvAppVersion.lt_trans,
    AcvVersion.compares_iff⟩

/-- The versions 1.0.0.0 and 1.0.0.2 of one build are neither less nor greater nor equal, and the
release 128 is less than the release 0. -/
theorem versions_not_ordered :
    ¬ Compares ((AcvAppVersion.new 0x5644000001000000).lt (.new 0x5644000001000002))
        ((AcvAppVersion.new 0x5644000001000000).gt (.new 0x5644000001000002))
        ((AcvAppVersion.new 0x5644000001000000).equals (.new 0x5644000001000002))
        (0x5644000001000000 : UInt64) 0x5644000001000002 ∧
      ¬ Compares (AcvVersion.lt ⟨0, 0, 0, 0⟩ ⟨128, 0, 0, 0⟩)
        (AcvVersion.gt ⟨0, 0, 0, 0⟩ ⟨128, 0, 0, 0⟩)
        (AcvVersion.equals ⟨0, 0, 0, 0⟩ ⟨128, 0, 0, 0⟩) (AcvVersion.fields ⟨0, 0, 0, 0⟩)
        (AcvVersion.fields ⟨128, 0, 0, 0⟩) := by
  constructor
  · intro h
    exact absurd (h.lt.2 (by decide)) (by decide)
  · intro h
    exact absurd (h.lt.2 (by decide)) (by decide)

end AcOpenServer
