/-!
# Format versions

Formats carry a major and a minor version number; later versions add fields.
-/

namespace ArchiveExport

/-- A format version. -/
structure Version where
  major : Nat
  minor : Nat
  deriving DecidableEq

namespace Version

/-- Whether a version is `major.minor` or later. -/
def atLeast (v : Version) (major minor : Nat) : Bool :=
  major < v.major || (v.major = major && minor ≤ v.minor)

/-- The version with a point between its numbers. -/
def text (v : Version) : String :=
  s!"{v.major}.{v.minor}"

/-- Later than a version that is late enough is late enough. -/
theorem atLeast_trans {v : Version} {a b c d : Nat} (h : v.atLeast a b = true)
    (hle : c < a ∨ (c = a ∧ d ≤ b)) : v.atLeast c d = true := by
  simp only [atLeast, Bool.or_eq_true, Bool.and_eq_true, decide_eq_true_eq] at h ⊢
  omega

end Version

end ArchiveExport
