import AskLens.Catalog.Registered

/-!
# The resource registry

A registry holds resources that registration has accepted, under their
normalized names. `register` is the only way to add one.
-/
namespace AskLens.Catalog

open Python Checks

structure CatalogRegistry (env : Environment) where
  resources : Dict SemanticResource
  registered : ∀ e ∈ resources, e.2.name = e.1 ∧ e.2.Registered env

namespace CatalogRegistry

variable {env : Environment}

def empty (env : Environment) : CatalogRegistry env := ⟨[], by simp⟩

def register (registry : CatalogRegistry env) (args : BuildArgs) : Py (CatalogRegistry env) :=
  match h : SemanticResource.build env args with
  | .error e => .error e
  | .ok resource =>
    if resource.name ∈ registry.resources.keys then
      .error (ErrorClass.duplicateResource.exc
        s!"Semantic resource {pyRepr resource.name} is already registered.")
    else
      .ok
        { resources := registry.resources ++ [(resource.name, resource)]
          registered := by
            intro e he
            rcases List.mem_append.mp he with he | he
            · exact registry.registered e he
            · obtain rfl := List.mem_singleton.mp he
              exact ⟨rfl, build_registered h⟩ }

def get (registry : CatalogRegistry env) (name : String) : Py SemanticResource := do
  let normalizedName ← normalizeResourceName env name
  match registry.resources.get? normalizedName with
  | some resource => .ok resource
  | none =>
    .error (ErrorClass.unknownResource.exc s!"Unknown semantic resource {pyRepr name}.")

def toDict (registry : CatalogRegistry env) (access : Access) : List ResourceCatalogItem :=
  (registry.resources.values.filter fun r => r.isCatalogVisible access.permissions).map fun r =>
    r.toDict env.unicode access

theorem get_ok {registry : CatalogRegistry env} {name : String} {r : SemanticResource}
    (h : registry.get name = .ok r) :
    (r.name, r) ∈ registry.resources ∧ normalizeResourceName env name = .ok r.name ∧
      r.Registered env := by
  obtain ⟨normalized, hnormalized, h⟩ := bind_eq_ok.mp h
  split at h
  · rename_i resource hresource
    obtain rfl : resource = r := by simpa using h
    have hmem := Dict.mem_of_get? hresource
    obtain ⟨hname, hregistered⟩ := registry.registered _ hmem
    simp only at hname
    rw [hname]
    exact ⟨hmem, hnormalized, hregistered⟩
  · cases h

theorem get_name {registry : CatalogRegistry env} {name : String} {r : SemanticResource}
    (h : registry.get name = .ok r) : registry.get r.name = .ok r := by
  obtain ⟨-, hname, -⟩ := get_ok h
  obtain ⟨normalized, hnormalized, hlookup⟩ := bind_eq_ok.mp h
  obtain rfl : r.name = normalized := by
    rw [hname] at hnormalized
    exact Except.ok.inj hnormalized
  refine bind_eq_ok.mpr ⟨r.name, normalizeResourceName_normalized hname, ?_⟩
  split at hlookup
  · rename_i resource hresource
    obtain rfl : resource = r := by simpa using hlookup
    simp only
  · cases hlookup

end CatalogRegistry

end AskLens.Catalog
