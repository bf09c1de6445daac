import Mathlib.Data.List.Basic

/-!
# Platform strings

What the crate uses of `OsStr` and `OsString`, as a class: the command builder is generic in the
platform, and its results hold for every instance. The two instances are the platforms of the crate:
byte strings on Unix, and 16-bit strings on Windows, where the Unicode lowercase mapping is a
parameter.
-/

namespace SysprimsPty.Command

/-- `OsString`: an ordered type of strings, in which the `str`s can be found again. -/
class OsStr (S : Type) extends Ord S, Std.TransOrd S, Std.LawfulEqOrd S where
  /-- `cfg!(windows)` -/
  cfgWindows : Bool
  /-- `OsStr::to_str` -/
  toStr : S → Option String
  /-- `OsString::from(&str)` -/
  ofStr : String → S
  /-- `str::to_lowercase` -/
  toLowercase : String → String
  /-- `OsString::push` -/
  push : S → S → S

/-- `OsStrExt` on Windows: the code units of a platform string. -/
class WideOsStr (S : Type) extends OsStr S where
  /-- `OsStrExt::encode_wide` -/
  encodeWide : S → List UInt16

/-! ## Unix -/

/-- A platform string on Unix. -/
abbrev Bytes := List UInt8

instance : OsStr Bytes where
  cfgWindows := false
  toStr b := String.fromUTF8? ⟨b.toArray⟩
  ofStr s := s.toUTF8.data.toList
  -- only called where `cfg!(windows)`
  toLowercase := id
  push := (· ++ ·)

/-! ## Windows -/

/-- A platform string on Windows: potentially ill-formed UTF-16. -/
abbrev Wide := List UInt16

/-- `0xD800..=0xDBFF` -/
def isHighSurrogate (u : UInt16) : Bool := 0xD800 ≤ u && u ≤ 0xDBFF

/-- `0xDC00..=0xDFFF` -/
def isLowSurrogate (u : UInt16) : Bool := 0xDC00 ≤ u && u ≤ 0xDFFF

/-- The code points of a platform string; an unpaired surrogate stands for itself. The order of
`OsString`, which compares the bytes of its WTF-8 form, is the lexicographic order of these. -/
def codePoints : Wide → List ℕ
  | [] => []
  | [u] => [u.toNat]
  | u :: v :: rest =>
      if isHighSurrogate u && isLowSurrogate v then
        (0x10000 + (u.toNat - 0xD800) * 0x400 + (v.toNat - 0xDC00)) :: codePoints rest
      else u.toNat :: codePoints (v :: rest)

/-- The code units of a code point. -/
def codeUnits (c : ℕ) : Wide :=
  if c < 0x10000 then [UInt16.ofNat c]
  else [UInt16.ofNat (0xD800 + (c - 0x10000) / 0x400), UInt16.ofNat (0xDC00 + (c - 0x10000) % 0x400)]

/-- Encoding the code points gives the string back. -/
theorem flatMap_codeUnits_codePoints (w : Wide) : (codePoints w).flatMap codeUnits = w := by
  fun_induction codePoints w with
  | case1 => rfl
  | case2 u =>
      have hu : u.toNat < 0x10000 := u.toNat_lt
      simp [codeUnits, hu]
  | case3 u v rest h ih =>
      simp only [isHighSurrogate, isLowSurrogate, Bool.and_eq_true, decide_eq_true_eq,
        UInt16.le_iff_toNat_le] at h
      obtain ⟨⟨hu, hu'⟩, hv, hv'⟩ := h
      have hu : 0xD800 ≤ u.toNat := hu
      have hu' : u.toNat ≤ 0xDBFF := hu'
      have hv : 0xDC00 ≤ v.toNat := hv
      have hv' : v.toNat ≤ 0xDFFF := hv'
      rw [List.flatMap_cons, ih, codeUnits, if_neg (by omega)]
      have hhigh : 0xD800 + (0x10000 + (u.toNat - 0xD800) * 0x400 + (v.toNat - 0xDC00) - 0x10000) /
          0x400 = u.toNat := by omega
      have hlow : 0xDC00 + (0x10000 + (u.toNat - 0xD800) * 0x400 + (v.toNat - 0xDC00) - 0x10000) %
          0x400 = v.toNat := by omega
      rw [hhigh, hlow, UInt16.ofNat_toNat, UInt16.ofNat_toNat]
      rfl
  | case4 u v rest h ih =>
      have hu : u.toNat < 0x10000 := u.toNat_lt
      rw [List.flatMap_cons, ih]
      simp [codeUnits, hu]

/-- A platform string is determined by its code points. -/
theorem codePoints_injective {v w : Wide} (h : codePoints v = codePoints w) : v = w := by
  rw [← flatMap_codeUnits_codePoints v, h, flatMap_codeUnits_codePoints]

/-- Windows strings with `toLowercase` as the Unicode lowercase mapping. -/
@[reducible] def windowsOsStr (toLowercase : String → String) : WideOsStr Wide where
  compare := compareOn codePoints
  eq_swap := @Std.OrientedCmp.eq_swap _ (compareOn codePoints) _
  isLE_trans := @Std.TransCmp.isLE_trans _ (compareOn codePoints) _
  compare_self := @Std.ReflCmp.compare_self _ (compareOn codePoints) _
  eq_of_compare h := codePoints_injective (Std.LawfulEqCmp.eq_of_compare h)
  cfgWindows := true
  toStr w :=
    if (codePoints w).all (fun c => c.isValidChar) then
      some (String.ofList ((codePoints w).map Char.ofNat))
    else none
  ofStr s := s.toList.flatMap fun c => codeUnits c.toNat
  toLowercase
  push := (· ++ ·)
  encodeWide := id

/-- What `encode_wide` gives for a `str`: its UTF-16 form. -/
class LawfulWideOsStr (S : Type) [WideOsStr S] : Prop where
  encodeWide_ofStr (s : String) :
    WideOsStr.encodeWide (OsStr.ofStr s : S) = s.toList.flatMap fun c => codeUnits c.toNat

instance (toLowercase : String → String) : @LawfulWideOsStr Wide (windowsOsStr toLowercase) :=
  let _ := windowsOsStr toLowercase
  ⟨fun _ => rfl⟩

/-- The Unicode lowercase mapping on strings of ASCII characters. -/
def asciiLowercase (s : String) : String := String.ofList (s.toList.map Char.toLower)

end SysprimsPty.Command
