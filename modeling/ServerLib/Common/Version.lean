import ServerLib.Common.Asserts
import ServerLib.Common.InputStream

/-!
# Versions

A version is packed into 32 bits: eight for the major number, eight for the minor one and sixteen
for the patch. It is written with dots, and read from a stream, with dots or underscores. In an
extended version the metadata stands behind the first `+`.
-/
namespace ServerLib

structure Version where
  vNum : UInt32 := 0
  deriving DecidableEq, Repr

structure VersionExt where
  base : Version := {}
  metadata : List UInt8 := []
  deriving DecidableEq, Repr

namespace Version

/-- The constructor. -/
def create (major minor : UInt8) (patch : UInt16) : Version :=
  let vNum : UInt32 := (0 ||| major.toUInt32) <<< 8
  let vNum := (vNum ||| minor.toUInt32) <<< 16
  ⟨vNum ||| patch.toUInt32⟩

def majorV (v : Version) : UInt8 := ((v.vNum >>> 24) &&& 0x000000FF).toUInt8

def minorV (v : Version) : UInt8 := ((v.vNum >>> 16) &&& 0x000000FF).toUInt8

def patch (v : Version) : UInt16 := (v.vNum &&& 0x0000FFFF).toUInt16

/-- `operator<` -/
def lt (v o : Version) : Bool := v.vNum < o.vNum

def toString (v : Version) : List UInt8 :=
  decimal v.majorV.toNat ++ 46 :: decimal v.minorV.toNat ++ 46 :: decimal v.patch.toNat

/-- What is kept of the three numbers that were read, or the assertion that fails. -/
def ofParts (dotA dotB : UInt8) (major hardfork revision : Nat) (eof : Bool) :
    Except LogicError Version :=
  if ¬ ((dotA = 46 ∨ dotA = 95) ∧ dotA = dotB) then
    .error ⟨"(dot_a == '.' || dot_a == '_') && dot_a == dot_b",
      "Input string does not contain proper dotted decimal format"⟩
  else if ¬ major ≤ 0xFF then .error ⟨"major_ <= 0xFF", "Major version is out of range"⟩
  else if ¬ hardfork ≤ 0xFF then
    .error ⟨"hardfork <= 0xFF", "Minor/Hardfork version is out of range"⟩
  else if ¬ revision ≤ 0xFFFF then
    .error ⟨"revision <= 0xFFFF", "Patch/Revision version is out of range"⟩
  else if ¬ eof then .error ⟨"s.eof()", "Extra information at end of version string"⟩
  else
    .ok ⟨(0 : UInt32) ||| major.toUInt32 <<< 24 ||| hardfork.toUInt32 <<< 16 |||
      revision.toUInt32⟩

/-- Whether the extractions have failed is not asked. -/
def fromString (negation : Negation) (input : List UInt8) : Except LogicError Version :=
  let (s, major) := InputStream.getUInt32 negation ⟨input, false, false⟩ 0
  let (s, dotA) := s.getChar 0
  let (s, hardfork) := s.getUInt32 negation 0
  let (s, dotB) := s.getChar 0
  let (s, revision) := s.getUInt32 negation 0
  ofParts dotA dotB major hardfork revision s.eof

/-! ### The packed number -/

theorem or_shiftLeft {a b i : Nat} (low : b < 2 ^ i) : a <<< i ||| b = a * 2 ^ i + b := by
  rw [← Nat.shiftLeft_add_eq_or_of_lt low, Nat.shiftLeft_eq]

theorem vNum_create (major minor : UInt8) (patch : UInt16) :
    (create major minor patch).vNum.toNat =
      (major.toNat * 2 ^ 8 + minor.toNat) * 2 ^ 16 + patch.toNat := by
  have major_lt := major.toNat_lt
  have minor_lt := minor.toNat_lt
  have patch_lt := patch.toNat_lt
  simp only [create, UInt32.toNat_or, UInt32.toNat_shiftLeft, UInt32.zero_or,
    UInt8.toNat_toUInt32, UInt16.toNat_toUInt32, UInt32.reduceToNat, Nat.reduceMod]
  -- nothing is shifted out
  have first : major.toNat <<< 8 < 2 ^ 32 := by
    rw [Nat.shiftLeft_eq]
    omega
  have second : (major.toNat * 2 ^ 8 + minor.toNat) <<< 16 < 2 ^ 32 := by
    rw [Nat.shiftLeft_eq]
    omega
  rw [Nat.mod_eq_of_lt first, or_shiftLeft minor_lt, Nat.mod_eq_of_lt second,
    or_shiftLeft patch_lt]

theorem toNat_majorV (v : Version) : v.majorV.toNat = v.vNum.toNat / 2 ^ 24 := by
  have bound := v.vNum.toNat_lt
  simp only [majorV, UInt32.toNat_toUInt8, UInt32.toNat_and, UInt32.toNat_shiftRight,
    UInt32.reduceToNat, Nat.reduceMod, Nat.shiftRight_eq_div_pow]
  rw [show 255 = 2 ^ 8 - 1 by rfl, Nat.and_two_pow_sub_one_eq_mod]
  omega

theorem toNat_minorV (v : Version) : v.minorV.toNat = v.vNum.toNat / 2 ^ 16 % 2 ^ 8 := by
  simp only [minorV, UInt32.toNat_toUInt8, UInt32.toNat_and, UInt32.toNat_shiftRight,
    UInt32.reduceToNat, Nat.reduceMod, Nat.shiftRight_eq_div_pow]
  rw [show 255 = 2 ^ 8 - 1 by rfl, Nat.and_two_pow_sub_one_eq_mod]
  omega

theorem toNat_patch (v : Version) : v.patch.toNat = v.vNum.toNat % 2 ^ 16 := by
  simp only [patch, UInt32.toNat_toUInt16, UInt32.toNat_and, UInt32.reduceToNat]
  rw [show 65535 = 2 ^ 16 - 1 by rfl, Nat.and_two_pow_sub_one_eq_mod]
  omega

/-- The parts of a version are those that it was made of. -/
theorem parts_create (major minor : UInt8) (patch : UInt16) :
    (create major minor patch).majorV = major ∧ (create major minor patch).minorV = minor ∧
      (create major minor patch).patch = patch := by
  have major_lt := major.toNat_lt
  have minor_lt := minor.toNat_lt
  have patch_lt := patch.toNat_lt
  refine ⟨UInt8.toNat_inj.mp ?_, UInt8.toNat_inj.mp ?_, UInt16.toNat_inj.mp ?_⟩
  · rw [toNat_majorV, vNum_create]
    omega
  · rw [toNat_minorV, vNum_create]
    omega
  · rw [toNat_patch, vNum_create]
    omega

/-- The order of the packed numbers is the one of the parts. -/
theorem lt_iff (v o : Version) :
    v.lt o = true ↔ v.majorV < o.majorV ∨ v.majorV = o.majorV ∧
      (v.minorV < o.minorV ∨ v.minorV = o.minorV ∧ v.patch < o.patch) := by
  have bound := v.vNum.toNat_lt
  have bound' := o.vNum.toNat_lt
  simp only [lt, decide_eq_true_eq, UInt32.lt_iff_toNat_lt, UInt8.lt_iff_toNat_lt,
    UInt16.lt_iff_toNat_lt, ← UInt8.toNat_inj, toNat_majorV, toNat_minorV, toNat_patch]
  omega

theorem packed_eq {major hardfork revision : Nat} (major_le : major ≤ 255)
    (hardfork_le : hardfork ≤ 255) (revision_le : revision ≤ 65535) :
    ((0 : UInt32) ||| major.toUInt32 <<< 24 ||| hardfork.toUInt32 <<< 16 ||| revision.toUInt32) =
      (create major.toUInt8 hardfork.toUInt8 revision.toUInt16).vNum := by
  have low : hardfork * 2 ^ 16 + revision < 2 ^ 24 := by omega
  have shifted : major <<< 24 < 2 ^ 32 ∧ hardfork <<< 16 < 2 ^ 32 := by
    rw [Nat.shiftLeft_eq, Nat.shiftLeft_eq]
    omega
  apply UInt32.toNat_inj.mp
  rw [vNum_create]
  simp only [UInt32.toNat_or, UInt32.toNat_shiftLeft, UInt32.zero_or, Nat.toUInt32_eq,
    UInt32.toNat_ofNat', UInt32.reduceToNat, Nat.reduceMod, Nat.toUInt8_eq, UInt8.toNat_ofNat',
    Nat.toUInt16_eq, UInt16.toNat_ofNat']
  rw [Nat.mod_eq_of_lt (show major < 2 ^ 32 by omega),
    Nat.mod_eq_of_lt (show hardfork < 2 ^ 32 by omega),
    Nat.mod_eq_of_lt (show revision < 2 ^ 32 by omega), Nat.mod_eq_of_lt shifted.1,
    Nat.mod_eq_of_lt shifted.2, Nat.or_assoc,
    or_shiftLeft (show revision < 2 ^ 16 by omega), or_shiftLeft low]
  omega

theorem ofParts_eq_ok_iff {dotA dotB : UInt8} {major hardfork revision : Nat} {eof : Bool}
    {v : Version} : ofParts dotA dotB major hardfork revision eof = .ok v ↔
      (dotA = 46 ∨ dotA = 95) ∧ dotA = dotB ∧ major ≤ 255 ∧ hardfork ≤ 255 ∧ revision ≤ 65535 ∧
        eof = true ∧ v = create major.toUInt8 hardfork.toUInt8 revision.toUInt16 := by
  unfold ofParts
  split
  next separators => exact ⟨nofun, fun all => absurd ⟨all.1, all.2.1⟩ separators⟩
  next separators =>
    obtain ⟨separator, same⟩ := not_not.mp separators
    split
    next large => exact ⟨nofun, fun all => absurd all.2.2.1 large⟩
    next major_le =>
      split
      next large => exact ⟨nofun, fun all => absurd all.2.2.2.1 large⟩
      next hardfork_le =>
        split
        next large => exact ⟨nofun, fun all => absurd all.2.2.2.2.1 large⟩
        next revision_le =>
          rw [not_not] at major_le hardfork_le revision_le
          split
          next extra => exact ⟨nofun, fun all => absurd all.2.2.2.2.2.1 extra⟩
          next ended =>
            rw [packed_eq major_le hardfork_le revision_le, Except.ok.injEq]
            constructor
            · rintro rfl
              exact ⟨separator, same, major_le, hardfork_le, revision_le, not_not.mp ended, rfl⟩
            · exact fun all => all.2.2.2.2.2.2.symm

/-- Two numbers with their separators are read, and then what is left. -/
theorem fromString_read {negation : Negation} {w₁ w₂ w₃ w₄ f₁ f₂ last : List UInt8} {c d : UInt8}
    {major hardfork : Nat} (blank₁ : InputStream.Blank w₁) (blank₂ : InputStream.Blank w₂)
    (blank₃ : InputStream.Blank w₃) (blank₄ : InputStream.Blank w₄)
    (first : InputStream.IsField negation f₁ major)
    (second : InputStream.IsField negation f₂ hardfork)
    (plain : ∀ b, b = c ∨ b = d → isSpace b = false ∧ isDecimal b = false) :
    fromString negation
        (w₁ ++ (f₁ ++ (w₂ ++ c :: (w₃ ++ (f₂ ++ (w₄ ++ d :: last)))))) =
      let (s, revision) := InputStream.getUInt32 negation ⟨last, false, false⟩ 0
      ofParts c d major hardfork revision s.eof := by
  obtain ⟨visible, other⟩ := plain c (.inl rfl)
  obtain ⟨visible', other'⟩ := plain d (.inr rfl)
  have inside : ∀ (w : List UInt8) b rest, (w ++ b :: rest).isEmpty = false := by simp
  simp only [fromString, InputStream.getUInt32_field blank₁ first
      (InputStream.endsField_append blank₂ other _), inside,
    InputStream.getChar_blank blank₂ visible, InputStream.getUInt32_field blank₃ second
      (InputStream.endsField_append blank₄ other' _), InputStream.getChar_blank blank₄ visible']

theorem create_parts (v : Version) : create v.majorV v.minorV v.patch = v := by
  have same : (create v.majorV v.minorV v.patch).vNum = v.vNum := by
    apply UInt32.toNat_inj.mp
    rw [vNum_create, toNat_majorV, toNat_minorV, toNat_patch]
    omega
  rw [Version.mk.injEq]
  exact same

theorem fromString_toString (negation : Negation) (v : Version) :
    fromString negation v.toString = .ok v := by
  have major_lt := v.majorV.toNat_lt
  have minor_lt := v.minorV.toNat_lt
  have patch_lt := v.patch.toNat_lt
  have is : v.toString = [] ++ (decimal v.majorV.toNat ++ ([] ++ 46 :: ([] ++
      (decimal v.minorV.toNat ++ ([] ++ 46 :: decimal v.patch.toNat))))) := by
    simp [toString]
  have plain : ∀ b : UInt8, b = 46 ∨ b = 46 → isSpace b = false ∧ isDecimal b = false := by
    rintro b (rfl | rfl) <;> decide
  have last := InputStream.getUInt32_field InputStream.blank_nil
    (InputStream.isField_decimal negation (show v.patch.toNat < 2 ^ 32 by omega))
    InputStream.endsField_nil 0
  rw [List.append_nil, List.nil_append] at last
  rw [is, fromString_read InputStream.blank_nil InputStream.blank_nil InputStream.blank_nil
    InputStream.blank_nil (InputStream.isField_decimal negation (by omega))
    (InputStream.isField_decimal negation (by omega)) plain, last]
  refine ofParts_eq_ok_iff.mpr ⟨.inl rfl, rfl, by omega, by omega, by omega, rfl, ?_⟩
  rw [Nat.toUInt8_eq, UInt8.ofNat_toNat, Nat.toUInt8_eq, UInt8.ofNat_toNat, Nat.toUInt16_eq,
    UInt16.ofNat_toNat, create_parts]

/-- A version is written without a `+`. -/
theorem plusless_toString (v : Version) : ∀ b ∈ v.toString, decide (b ≠ 43) = true := by
  have digits : ∀ n, ∀ b ∈ decimal n, b ≠ 43 := fun n b member =>
    (digit_plain (by decide) ((isNumeral_decimal n).2 b member)).2.2.1
  intro b member
  rw [decide_eq_true_eq]
  simp only [toString, List.append_assoc, List.mem_append, List.mem_cons] at member
  rcases member with major | (rfl | minor) | rfl | patch
  · exact digits _ b major
  · decide
  · exact digits _ b minor
  · decide
  · exact digits _ b patch

end Version

namespace VersionExt

/-- `operator std::string` -/
def toString (v : VersionExt) : List UInt8 :=
  if v.metadata = [] then v.base.toString else v.base.toString ++ 43 :: v.metadata

def fromString (negation : Negation) (input : List UInt8) : Except LogicError VersionExt :=
  let base := input.takeWhile (· ≠ 43)
  match Version.fromString negation base with
  | .error error => .error error
  | .ok base =>
    match input.dropWhile (· ≠ 43) with
    | [] => .ok ⟨base, []⟩
    | _ :: metadata => .ok ⟨base, metadata⟩

theorem fromString_toString (negation : Negation) (v : VersionExt) :
    fromString negation v.toString = .ok v := by
  obtain ⟨base, metadata⟩ := v
  have plusless := base.plusless_toString
  unfold fromString toString
  split
  next empty =>
    have whole : base.toString.takeWhile (· ≠ 43) = base.toString :=
      List.takeWhile_eq_self_iff.mpr plusless
    have nothing : base.toString.dropWhile (· ≠ 43) = [] :=
      List.dropWhile_eq_nil_iff.mpr plusless
    dsimp only at empty ⊢
    rw [whole, nothing, Version.fromString_toString, empty]
  next some_metadata =>
    -- the search stops at the first `+`, which is the one in front of the metadata
    have front : (base.toString ++ 43 :: metadata).takeWhile (· ≠ 43) = base.toString := by
      rw [List.takeWhile_append_of_pos plusless, List.takeWhile_cons_of_neg (by decide),
        List.append_nil]
    have behind : (base.toString ++ 43 :: metadata).dropWhile (· ≠ 43) = 43 :: metadata := by
      rw [List.dropWhile_append_of_pos plusless, List.dropWhile_cons_of_neg (by decide)]
    dsimp only
    rw [front, behind, Version.fromString_toString]

end VersionExt

/-- What is written is read again, with its parts and any metadata, and versions are ordered by
their parts. -/
theorem version_round_trip (negation : Negation) (major minor : UInt8) (patch : UInt16)
    (metadata : List UInt8) :
    (∃ v, VersionExt.fromString negation
        (VersionExt.toString ⟨.create major minor patch, metadata⟩) = .ok v ∧
      v.base = .create major minor patch ∧ v.base.majorV = major ∧ v.base.minorV = minor ∧
      v.base.patch = patch ∧ v.metadata = metadata) ∧
    ∀ v o : Version, v.lt o = true ↔ v.majorV < o.majorV ∨ v.majorV = o.majorV ∧
      (v.minorV < o.minorV ∨ v.minorV = o.minorV ∧ v.patch < o.patch) := by
  obtain ⟨sameMajor, sameMinor, samePatch⟩ := Version.parts_create major minor patch
  have read := VersionExt.fromString_toString negation ⟨.create major minor patch, metadata⟩
  exact ⟨⟨_, read, rfl, sameMajor, sameMinor, samePatch, rfl⟩, Version.lt_iff⟩

end ServerLib
