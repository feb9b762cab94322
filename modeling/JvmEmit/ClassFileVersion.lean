/-!
# Class-file versions

A class file states the format version it follows. The supported major versions run without gaps
from 45 to 62, one for each release from 1 to 18, and all of them have minor version 0.
-/

namespace JvmEmit

/-- A supported class-file version, given by its major number. -/
structure ClassFileVersion where
  major : Nat
  /-- The first release wrote version 45. -/
  first_le : 45 ≤ major
  /-- The last supported release writes version 62. -/
  le_last : major ≤ 62
deriving DecidableEq

/-- A number was asked for that no supported version has as its major number. -/
structure UnsupportedVersion where
  major : Int
deriving DecidableEq

/-- The wording of a request for an unsupported version. -/
def UnsupportedVersion.message (cause : UnsupportedVersion) : String :=
  "No discriminant in enum `ClassVersion` matches the value `" ++ toString cause.major ++ "`"

namespace ClassFileVersion

/-- The version with this major number, if it is supported. -/
def ofMajor (major : Int) : Except UnsupportedVersion ClassFileVersion :=
  if range : 45 ≤ major ∧ major ≤ 62 then .ok ⟨major.toNat, by omega, by omega⟩
  else .error ⟨major⟩

/-- The release that introduced a version, counted from 1. -/
def release (version : ClassFileVersion) : Nat :=
  version.major - 44

/-- The name of the release that introduced a version. -/
def name (version : ClassFileVersion) : String :=
  "Java" ++ toString version.release

/-- Every supported version is the first of its major number. -/
def minor (_version : ClassFileVersion) : Nat :=
  0

/-- The written form of a version, its major and minor number. -/
def text (version : ClassFileVersion) : String :=
  toString version.major ++ "." ++ toString version.minor

instance : ToString ClassFileVersion where
  toString := text

/-- Versions are ordered by their major number. -/
instance : Ord ClassFileVersion where
  compare left right := compare left.major right.major

/-- The version written when none is asked for, that of release 8. -/
def standard : ClassFileVersion :=
  ⟨52, by decide, by decide⟩

end ClassFileVersion

end JvmEmit
