/-!
# Headers

The headers that the C file includes, without the ending `.h`, each once and in the order in which
they were first asked for. The file itself lists the standard ones first, in a fixed order
(`Headers.includes`). Registering a header keeps the headers distinct (`nodup_register`).
-/

set_option autoImplicit false

namespace ScriptToC

/-- The headers asked for so far. -/
structure Headers where
  names : List String := []
  deriving DecidableEq, Repr

namespace Headers

/-- The standard headers, in the order in which a file includes them. -/
def standard : List String := ["stdio", "stdlib", "string", "stdint"]

/-- The header was asked for. -/
def contains (headers : Headers) (name : String) : Bool :=
  headers.names.contains name

/-- The headers with one more, unless it is there already. -/
def register (headers : Headers) (name : String) : Headers :=
  if headers.contains name then headers else ⟨headers.names ++ [name]⟩

/-- The headers in the order in which a file includes them. -/
def includes (headers : Headers) : List String :=
  standard.filter headers.contains ++ headers.names.filter fun name => !standard.contains name

/-- Registering adds one header and keeps the others. -/
theorem contains_register (headers : Headers) (name other : String) :
    (headers.register name).contains other = (other == name || headers.contains other) := by
  by_cases present : headers.contains name
  · by_cases same : other = name
    · subst same; simp [register, present]
    · simp [register, present, same]
  · rw [register, if_neg present]
    by_cases same : other = name <;> simp [contains, same]

/-- Registering keeps the headers distinct. -/
theorem nodup_register {headers : Headers} (nodup : headers.names.Nodup) (name : String) :
    (headers.register name).names.Nodup := by
  by_cases present : headers.contains name
  · simpa [register, present] using nodup
  · have absent : name ∉ headers.names := by simpa [contains] using present
    simp only [register, present]
    refine List.nodup_append.mpr ⟨nodup, by simp, ?_⟩
    intro a ha b hb
    simp only [List.mem_singleton] at hb
    exact fun eq => absent (hb ▸ eq ▸ ha)

end Headers

end ScriptToC
