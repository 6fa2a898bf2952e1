/-!
The names of the functions that may be called, in the order in which each last became allowed.
Allowing a name again keeps its place; denying a name and allowing it again moves it to the end.
-/
namespace ConfigExpr

abbrev Allowlist := List String

namespace Allowlist

def allows (names : Allowlist) (name : String) : Bool :=
  names.contains name

def allow (names : Allowlist) (name : String) : Allowlist :=
  if names.contains name then names else names ++ [name]

def deny (names : Allowlist) (name : String) : Allowlist :=
  names.filter (· != name)

def ofList (names : List String) : Allowlist :=
  names.foldl allow []

/-- What is allowed unless a configuration says otherwise. -/
def standard : Allowlist :=
  ["md5", "sha1", "time", "date", "strtotime", "base64_encode", "hash_hmac", "sprintf", "concat",
    "ifempty", "implode", "hash"]

theorem mem_allow (names : Allowlist) (name other : String) :
    other ∈ allow names name ↔ other ∈ names ∨ other = name := by
  unfold allow
  split
  · next present =>
    have held : name ∈ names := by simpa using present
    exact ⟨Or.inl, fun h => h.elim id fun same => same ▸ held⟩
  · simp

theorem mem_deny (names : Allowlist) (name other : String) :
    other ∈ deny names name ↔ other ∈ names ∧ other ≠ name := by
  simp [deny]

end Allowlist

end ConfigExpr
