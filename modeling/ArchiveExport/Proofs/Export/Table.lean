import ArchiveExport.Export.Table
import ArchiveExport.Proofs.Data.OrderedMap

/-!
# The standard table spelled out

The rules for all formats under the extensions as they are looked up. What the table says is read
off here, without registering its rules one after the other.
-/

namespace ArchiveExport.DispatchTable

open Entry (extension)

/-- The standard table as the lists of its rules. -/
def spelled : DispatchTable where
  plain := ⟨textExtensions.map (·, .text) ++
    [("pal", .structured .palette), ("spr", .structured .sprite), ("act", .structured .animation),
      ("gat", .structured .altitude), ("rsw", .structured .world), ("", .structured .bundle)]⟩
  qualified := ⟨[("lub", [chunkRule])]⟩
  renderers := ⟨imageExtensions.map (·, .image) ++
    [("spr", .spriteFrames), ("pal", .palette), ("", .bundleFrames)]⟩

theorem qualified_foldl {α : Type} {add : DispatchTable → α → DispatchTable}
    (h : ∀ t rule, (add t rule).qualified = t.qualified) (rules : List α) (t : DispatchTable) :
    (rules.foldl add t).qualified = t.qualified := by
  induction rules generalizing t with
  | nil => rfl
  | cons rule rules ih => rw [List.foldl_cons, ih, h]

/-- All extensions are registered in the form that is looked up, and each once. -/
theorem standard_eq_spelled : standard = spelled := by
  have hplain : standard.plain.entries = spelled.plain.entries := by
    decide +kernel
  have hrenderers : standard.renderers.entries = spelled.renderers.entries := by
    decide
  have hqualified : standard.qualified = spelled.qualified := by
    have hlub : normalize "lub" = "lub" := by decide
    unfold standard
    dsimp only
    rw [qualified_foldl fun t rule => by cases rule; rfl, qualified_foldl fun t rule => by rfl,
      registerQualified, hlub]
    dsimp only
    rw [qualified_foldl fun t rule => by cases rule; rfl, qualified_foldl fun t rule => by rfl]
    rfl
  -- as a variable, since comparing the table with its fields would register all rules again
  have hfields : ∀ t : DispatchTable,
      t = ⟨⟨t.plain.entries⟩, t.qualified, ⟨t.renderers.entries⟩⟩ := fun _ => rfl
  rw [hfields standard, hplain, hqualified, hrenderers]

/-! ### Bundles -/

/-- Bundles are what names without extension are decoded as, and nothing else is. -/
theorem handlerFor_eq_bundle_iff {name : String} :
    standard.handlerFor name = .structured .bundle ↔ extension name = "" := by
  have hplain : ∀ rule ∈ spelled.plain.entries, rule.2 = .structured .bundle → rule.1 = "" := by
    decide
  have hqualified : ∀ rules ∈ spelled.qualified.entries, ∀ rule ∈ rules.2,
      rule.handler = .structured .luaChunk := by
    decide
  rw [standard_eq_spelled]
  constructor
  · intro h
    rw [handlerFor] at h
    split at h
    next rule hrule =>
      have hmem := List.mem_of_find?_eq_some hrule
      rw [qualifiedRules] at hmem
      cases hrules : spelled.qualified.find? (extension name) with
      | none => simp [hrules] at hmem
      | some rules =>
          rw [hrules, Option.getD_some] at hmem
          have hlua := hqualified _ (OrderedMap.mem_entries_of_find? hrules) rule hmem
          rw [h] at hlua
          simp at hlua
    next =>
      cases hfound : spelled.plain.find? (extension name) with
      | none => simp [hfound] at h
      | some handler =>
          rw [hfound, Option.getD_some] at h
          exact hplain _ (OrderedMap.mem_entries_of_find? hfound) h
  · intro h
    have hnone : spelled.qualifiedRules "" = [] := by
      decide
    have hbundle : spelled.plain.find? "" = some (.structured .bundle) := by
      decide
    rw [handlerFor]
    simp only [h, hnone, List.find?_nil, hbundle, Option.getD_some]

/-- The images of bundles are those of names without extension. -/
theorem rendererFor?_eq_bundleFrames_iff {name : String} :
    standard.rendererFor? name = some .bundleFrames ↔ extension name = "" := by
  have hrenderers : ∀ rule ∈ spelled.renderers.entries, rule.2 = .bundleFrames → rule.1 = "" := by
    decide
  have hbundle : spelled.renderers.find? "" = some .bundleFrames := by
    decide
  rw [standard_eq_spelled]
  constructor
  · intro h
    exact hrenderers _ (OrderedMap.mem_entries_of_find? h) rfl
  · intro h
    rw [rendererFor?, h, hbundle]

end ArchiveExport.DispatchTable
