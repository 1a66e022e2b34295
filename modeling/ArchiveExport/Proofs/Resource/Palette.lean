import ArchiveExport.Resource.Palette

/-!
# The colours of a stored palette

A palette is stored as the channels of its colours in order, and each colour is read back.
-/

namespace ArchiveExport.Palette

/-- A palette with each colour changed by a map that may look at its index. -/
def mapColors (p : Palette) (f : Nat → Color → Color) : Palette :=
  ⟨Vector.ofFn fun i => f i.val (p.colors.get i)⟩

theorem length_flatMap_octets (colors : List Color) :
    (colors.flatMap Color.octets).length = 4 * colors.length := by
  induction colors with
  | nil => rfl
  | cons c colors ih =>
      rw [List.flatMap_cons, List.length_append, ih, List.length_cons]
      simp only [Color.octets, List.length_cons, List.length_nil]
      omega

theorem length_octets (p : Palette) : p.octets.length = size := by
  rw [octets, length_flatMap_octets]
  simp [size]

/-- The channels of a colour stand behind those of the colours before it. -/
theorem getElem?_flatMap_octets (colors : List Color) {i : Nat} (h : i < colors.length)
    {channel : Nat} (hchannel : channel < 4) :
    (colors.flatMap Color.octets)[4 * i + channel]? = colors[i].octets[channel]? := by
  induction colors generalizing i with
  | nil => simp at h
  | cons c colors ih =>
      cases i with
      | zero =>
          rw [List.flatMap_cons, Nat.mul_zero, Nat.zero_add,
            List.getElem?_append_left (by simpa [Color.octets] using hchannel)]
          rfl
      | succ i =>
          have hindex : 4 * (i + 1) + channel = c.octets.length + (4 * i + channel) := by
            simp only [Color.octets, List.length_cons, List.length_nil]
            omega
          rw [List.flatMap_cons, hindex, List.getElem?_append_right (by omega),
            Nat.add_sub_cancel_left, ih (by simpa using h)]
          rfl

/-- A stored palette is read back, with each colour as it is meant. -/
theorem ofTable_octets (p : Palette) (f : Nat → Color → Color) :
    ofTable p.octets f = p.mapColors f := by
  have hcell : ∀ (i : Fin 256) {channel : Nat}, channel < 4 →
      p.octets.toArray.getD (4 * i.val + channel) 0 =
        ((p.colors.get i).octets[channel]?).getD 0 := by
    intro i channel hchannel
    rw [Array.getD_eq_getD_getElem?, List.getElem?_toArray, octets,
      getElem?_flatMap_octets _ (by simp) hchannel, Vector.getElem_toList]
    rfl
  rw [ofTable, mapColors]
  congr 2
  funext i
  have hred : p.octets.toArray.getD (4 * i.val) 0 = (p.colors.get i).red :=
    @hcell i 0 (by decide)
  rw [hred, hcell i (by decide), hcell i (by decide), hcell i (by decide)]
  rfl

end ArchiveExport.Palette
