import ArchiveExport.Proofs.Disk.Tree
import ArchiveExport.Proofs.Export.Conflicts
import Mathlib.Data.List.TakeWhile

/-!
# Outputs stay below the root

The root joined with the pieces of a path, normalized as a text, is where the path leads. A path is
accepted when that text goes on behind the root's with a slash and with proper names, and refused
when it is the root's own or anything else.
-/

namespace ArchiveExport

namespace AbsolutePath

variable {root target : AbsolutePath} {text piece : String} {names : Path}

/-! ### The slashes in front of a text -/

theorem leadOf_eq (text : String) :
    leadOf text = if (text.toList.takeWhile (· = '/')).length = 2 then "//" else "/" := by
  have htwo : "//".toList = ['/', '/'] := rfl
  have hthree : "///".toList = ['/', '/', '/'] := rfl
  rw [leadOf, Text.startsWith, Text.startsWith, htwo, hthree]
  rcases text.toList with _ | ⟨first, _ | ⟨second, _ | ⟨third, rest⟩⟩⟩
  · rfl
  · by_cases hfirst : first = '/' <;> simp [List.isPrefixOf, hfirst]
  · by_cases hfirst : first = '/' <;> by_cases hsecond : second = '/' <;>
      simp [List.isPrefixOf, hfirst, hsecond, @eq_comm _ '/']
  · by_cases hfirst : first = '/' <;> by_cases hsecond : second = '/' <;>
      by_cases hthird : third = '/' <;>
      simp [List.isPrefixOf, hfirst, hsecond, hthird, @eq_comm _ '/']

theorem takeWhile_eq_nil_of_noSlash (h : '/' ∉ piece.toList) :
    piece.toList.takeWhile (· = '/') = [] := by
  rw [List.takeWhile_eq_nil_iff]
  intro hlength hfirst
  exact h (of_decide_eq_true hfirst ▸ List.get_mem _ _)

/-- The text of proper names starts with no slash. -/
theorem takeWhile_join (h : ∀ name ∈ names, Path.IsName name) :
    (Text.join "/" names).toList.takeWhile (· = '/') = [] := by
  by_cases hne : names = []
  · rw [hne]
    rfl
  · rw [List.takeWhile_eq_nil_iff]
    intro hlength hfirst
    apply head?_join_ne h hne
    rw [List.head?_eq_getElem?, List.getElem?_eq_getElem hlength]
    exact congrArg some (of_decide_eq_true hfirst)

theorem takeWhile_text (hroot : root.Normal) :
    root.text.toList.takeWhile (· = '/') = root.lead.toList := by
  rw [text, String.toList_append, List.takeWhile_append, takeWhile_join hroot.isName,
    List.append_nil]
  rcases hroot.lead with hlead | hlead
  · rw [hlead]
    rfl
  · rw [hlead]
    rfl

theorem leadOf_text (hroot : root.Normal) : leadOf root.text = root.lead := by
  rw [leadOf_eq, takeWhile_text hroot]
  rcases hroot.lead with hlead | hlead
  · rw [hlead]
    rfl
  · rw [hlead]
    rfl

/-- A piece without slashes leaves the slashes in front of a text as they are. -/
theorem leadOf_join (habsolute : Path.isAbsolute text = true) (hpiece : '/' ∉ piece.toList) :
    leadOf (Path.join text piece) = leadOf text := by
  have hrelative : ¬ Path.isAbsolute piece = true := by
    rw [Path.isAbsolute, Text.startsWith, List.isPrefixOf_iff_prefix]
    exact fun hstarts => hpiece (hstarts.subset (by simp))
  have hne := Path.ne_empty_of_isAbsolute habsolute
  rw [leadOf_eq, leadOf_eq, Path.join, if_neg hrelative]
  by_cases hends : Text.endsWith "/" text = true
  · rw [if_pos (Or.inr hends), String.toList_append, List.takeWhile_append,
      takeWhile_eq_nil_of_noSlash hpiece, List.append_nil]
    split
    next hall => rw [(List.takeWhile_prefix _).eq_of_length hall]
    next => rfl
  · have hmore : (text.toList.takeWhile (· = '/')).length ≠ text.toList.length := by
      intro hall
      have htext := (List.takeWhile_prefix (· = '/')).eq_of_length hall
      obtain ⟨front, last, hlast⟩ := (List.eq_nil_or_concat' text.toList).resolve_left
        (by simpa using hne)
      have hmem : last ∈ text.toList.takeWhile (· = '/') := by
        rw [htext, hlast]
        exact List.mem_append_right _ List.mem_cons_self
      have hslash : last = '/' := by simpa using List.mem_takeWhile_imp hmem
      apply hends
      rw [Text.endsWith, List.isSuffixOf_iff_suffix, hlast, hslash]
      exact List.suffix_append _ _
    rw [if_neg (not_or.mpr ⟨hne, hends⟩), String.toList_append, String.toList_append,
      List.append_assoc, List.takeWhile_append, if_neg hmore]

/-! ### Joining and normalizing -/

theorem follow_split_root (hroot : root.Normal) :
    Path.follow [] (Text.split '/' root.text) = root.place := by
  by_cases hne : root.place = []
  · rcases hroot.lead with hlead | hlead
    · rw [text, hlead, hne]
      decide
    · rw [text, hlead, hne]
      decide
  · exact follow_split_text hroot hne

/-- One more piece leads where following it leads. -/
theorem follow_split_join (habsolute : Path.isAbsolute text = true)
    (hpiece : '/' ∉ piece.toList) :
    Path.follow [] (Text.split '/' (Path.join text piece)) =
      Path.step (Path.follow [] (Text.split '/' text)) piece := by
  obtain ⟨-, front, hjoin, hfront⟩ := exists_split_join habsolute hpiece
  have hsame : Path.follow [] (Text.split '/' text) = Path.follow [] front := by
    rcases hfront with hsplit | hsplit
    · rw [hsplit]
    · rw [hsplit, Path.follow_append]
      rfl
  rw [hjoin, Path.follow_append, hsame]
  rfl

/-- A text with pieces joined to it leads where following them leads. -/
theorem foldl_join (habsolute : Path.isAbsolute text = true) {pieces : List String}
    (hpieces : ∀ piece ∈ pieces, '/' ∉ piece.toList) :
    Path.isAbsolute (pieces.foldl Path.join text) = true ∧
      leadOf (pieces.foldl Path.join text) = leadOf text ∧
      Path.follow [] (Text.split '/' (pieces.foldl Path.join text)) =
        Path.follow (Path.follow [] (Text.split '/' text)) pieces := by
  induction pieces generalizing text with
  | nil => exact ⟨habsolute, rfl, rfl⟩
  | cons piece pieces ih =>
      have hpiece := hpieces piece List.mem_cons_self
      obtain ⟨habsolute', hlead, hfollow⟩ := ih (exists_split_join habsolute hpiece).1
        fun other hother => hpieces other (List.mem_cons_of_mem _ hother)
      refine ⟨habsolute', hlead.trans (leadOf_join habsolute hpiece), ?_⟩
      rw [List.foldl_cons, hfollow, follow_split_join habsolute hpiece]
      rfl

theorem text_inj (hroot : root.Normal) (htarget : target.Normal) (h : root.text = target.text) :
    root = target := by
  have hlead : root.lead = target.lead := by
    rw [← leadOf_text hroot, h, leadOf_text htarget]
  have hplace : root.place = target.place := by
    rw [← follow_split_root hroot, h, follow_split_root htarget]
  exact AbsolutePath.mk.injEq .. |>.mpr ⟨hlead, hplace⟩

/-! ### Below a root -/

/-- A path whose text is that of the root, a slash, and one proper name or more behind it. -/
def IsBelow (root target : AbsolutePath) : Prop :=
  ∃ names, names ≠ [] ∧ (∀ name ∈ names, Path.IsName name) ∧
    target.text = root.text ++ "/" ++ Text.join "/" names

theorem text_below (hroot : root.place ≠ []) (hne : names ≠ []) :
    (root.below names).text = root.text ++ "/" ++ Text.join "/" names := by
  rw [text, text, below, Text.join, Text.join, Text.join,
    String.intercalate_append_of_ne_nil hroot hne]
  simp only [String.append_assoc]

/-- Below a root of two slashes there is nothing: a text would have to begin with three. -/
theorem IsBelow.place_ne_nil (h : root.IsBelow target) (hroot : root.Normal)
    (hslash : root.text ≠ "/") (htarget : target.Normal) : root.place ≠ [] := by
  obtain ⟨names, -, hnames, htext⟩ := h
  intro hempty
  have hlead : root.lead = "//" := by
    refine hroot.lead.resolve_left fun hlead => hslash ?_
    rw [text, hlead, hempty]
    rfl
  have hlong := congrArg List.length (takeWhile_text htarget)
  have hthree : "///".toList.takeWhile (· = '/') = "///".toList := rfl
  have hroottext : root.text ++ "/" = "///" := by
    rw [text, hlead, hempty]
    rfl
  rw [htext, hroottext, String.toList_append, List.takeWhile_append, hthree, if_pos rfl,
    takeWhile_join hnames] at hlong
  rcases htarget.lead with hlead | hlead
  · simp [hlead] at hlong
  · simp [hlead] at hlong

theorem isBelow_iff (hroot : root.Normal) (hslash : root.text ≠ "/") (htarget : target.Normal) :
    root.IsBelow target ↔
      root.place ≠ [] ∧ target.lead = root.lead ∧ root.place <+: target.place ∧
        target.place ≠ root.place := by
  constructor
  · intro hbelow
    have hplace := hbelow.place_ne_nil hroot hslash htarget
    obtain ⟨names, hne, hnames, htext⟩ := hbelow
    have hsame : target = root.below names :=
      text_inj htarget (normal_below hroot hnames) (htext.trans (text_below hplace hne).symm)
    rw [hsame]
    refine ⟨hplace, rfl, List.prefix_append _ _, ?_⟩
    simpa [below] using hne
  · rintro ⟨hplace, hlead, ⟨names, happend⟩, hmore⟩
    have hne : names ≠ [] := by
      rintro rfl
      exact hmore (by rw [← happend, List.append_nil])
    have hsame : target = root.below names := by
      rw [below, ← hlead, happend]
    refine ⟨names, hne, fun name hname => htarget.isName name ?_, ?_⟩
    · rw [← happend]
      exact List.mem_append_right _ hname
    · rw [hsame, text_below hplace hne]

end AbsolutePath

namespace Sink

variable {sink : Sink} {path : String} {target : AbsolutePath}

/-- The root joined with the pieces of a path, normalized without looking at the disk. -/
def normalized (sink : Sink) (path : String) : AbsolutePath :=
  .ofText sink.root ((names path).foldl Path.join sink.root.text)

theorem normalized_eq (hroot : sink.root.Normal) (path : String) :
    sink.normalized path = ⟨sink.root.lead, sink.place path⟩ := by
  have hpieces : ∀ piece ∈ names path, '/' ∉ piece.toList :=
    fun piece hpiece => not_mem_of_mem_names hpiece
  obtain ⟨habsolute, hlead, hfollow⟩ :=
    AbsolutePath.foldl_join (AbsolutePath.isAbsolute_text hroot) hpieces
  rw [normalized, AbsolutePath.ofText, if_pos habsolute, hlead, hfollow,
    AbsolutePath.leadOf_text hroot, AbsolutePath.follow_split_root hroot, place_eq_follow]

theorem normal_normalized (hroot : sink.root.Normal) (path : String) :
    (sink.normalized path).Normal :=
  AbsolutePath.normal_ofText hroot _

theorem resolve_eq_ok_iff_isBelow (hroot : sink.root.Normal) (hslash : sink.root.text ≠ "/") :
    sink.resolve path = .ok target ↔
      target = sink.normalized path ∧ sink.root.IsBelow target := by
  have hnormalized := normalized_eq hroot path
  have hnormal := normal_normalized hroot path
  rw [hnormalized] at hnormal ⊢
  rw [resolve_eq_ok_iff]
  constructor
  · rintro ⟨hne, hprefix, hmore, hlead, hplace⟩
    have hsame : target = ⟨sink.root.lead, sink.place path⟩ := by
      rw [← hlead, ← hplace]
    refine ⟨hsame, ?_⟩
    rw [hsame, AbsolutePath.isBelow_iff hroot hslash hnormal]
    exact ⟨hne, rfl, hprefix, hmore⟩
  · rintro ⟨rfl, hbelow⟩
    obtain ⟨hne, -, hprefix, hmore⟩ :=
      (AbsolutePath.isBelow_iff hroot hslash hnormal).mp hbelow
    exact ⟨hne, hprefix, hmore, rfl, rfl⟩

theorem resolve_eq_error_isRoot_iff (hroot : sink.root.Normal) :
    sink.resolve path = .error (.isRoot path) ↔ sink.normalized path = sink.root := by
  have hsame : sink.normalized path = sink.root ↔ sink.place path = sink.root.place := by
    rw [normalized_eq hroot]
    constructor
    · intro h
      exact congrArg AbsolutePath.place h
    · intro h
      rw [h]
  rw [hsame, resolve, ← place_eq_follow]
  by_cases hplace : sink.place path = sink.root.place
  · simp [hplace]
  · rw [if_neg hplace]
    split <;> simp [hplace]

/-- A path is refused with its own text, as the root or as one that escapes. -/
theorem resolve_eq_error {fault : Fault} (h : sink.resolve path = .error fault) :
    fault = .isRoot path ∨ fault = .escapes path := by
  rw [resolve] at h
  split at h
  · exact Or.inl (Except.error.inj h).symm
  · split at h
    · cases h
    · exact Or.inr (Except.error.inj h).symm

/-- A write changes no file but its target. -/
theorem exists_target_of_file?_ne (hroot : sink.root.Normal) {disk : Disk} {data : Bytes}
    {place : Path} (h : (sink.write disk path data).2.1.file? place ≠ disk.file? place) :
    ∃ target, sink.resolve path = .ok target ∧ target.place = place := by
  obtain ⟨grown, hgrows, ⟨fault, hwrite⟩ | ⟨target, hresolve, -, -, hne, -, -, hwrite⟩⟩ :=
    write_cases hroot disk path data
  · rw [hwrite] at h
    exact absurd (hgrows.file? place) h
  · refine ⟨target, hresolve, Classical.byContradiction fun hother => h ?_⟩
    have hput : (grown.put target.place (.file data)).file? place = grown.file? place := by
      rw [Disk.file?, Disk.file?, Disk.node?_put hne, if_neg (Ne.symm hother)]
    rw [hwrite]
    exact hput.trans (hgrows.file? place)

theorem resolve_eq_error_escapes_iff (hroot : sink.root.Normal) (hslash : sink.root.text ≠ "/") :
    sink.resolve path = .error (.escapes path) ↔
      sink.normalized path ≠ sink.root ∧ ¬ sink.root.IsBelow (sink.normalized path) := by
  have hok : ∀ target, sink.resolve path = .ok target ↔
      target = sink.normalized path ∧ sink.root.IsBelow target :=
    fun target => resolve_eq_ok_iff_isBelow hroot hslash
  have hisRoot : sink.resolve path = .error (.isRoot path) ↔ sink.normalized path = sink.root :=
    resolve_eq_error_isRoot_iff hroot
  constructor
  · intro hescapes
    constructor
    · intro hsame
      rw [hisRoot.mpr hsame] at hescapes
      cases hescapes
    · intro hbelow
      rw [(hok _).mpr ⟨rfl, hbelow⟩] at hescapes
      cases hescapes
  · rintro ⟨hmore, hnot⟩
    cases hresolve : sink.resolve path with
    | ok target =>
        obtain ⟨hsame, hbelow⟩ := (hok target).mp hresolve
        rw [hsame] at hbelow
        exact absurd hbelow hnot
    | error fault =>
        rcases resolve_eq_error hresolve with rfl | rfl
        · exact absurd (hisRoot.mp hresolve) hmore
        · rfl

/-- A file that a write changes has proper names behind those of the root. -/
theorem exists_names_of_file?_ne (hroot : sink.root.Normal) {disk : Disk} {data : Bytes}
    {place : Path} (h : (sink.write disk path data).2.1.file? place ≠ disk.file? place) :
    ∃ names, names ≠ [] ∧ (∀ name ∈ names, Path.IsName name) ∧
      place = sink.root.place ++ names := by
  obtain ⟨target, hresolve, rfl⟩ := exists_target_of_file?_ne hroot h
  obtain ⟨-, ⟨names, hplace⟩, hmore, -, htarget⟩ := resolve_eq_ok_iff.mp hresolve
  obtain ⟨hnormal, -, -⟩ := normal_of_resolve hroot hresolve
  rw [← htarget] at hplace hmore
  refine ⟨names, ?_, fun name hname => hnormal.isName name ?_, hplace.symm⟩
  · rintro rfl
    exact hmore (by rw [← hplace, List.append_nil])
  · rw [← hplace]
    exact List.mem_append_right _ hname

/-- Let the root be absolute, normalized and not a single slash. A path is accepted exactly when the
root joined with it and normalized is the root's text with a slash and one proper name or more
behind it, and this is then where the output goes. A path is refused as empty where it leads to the
root, and as one that escapes everywhere else, and then nothing is written. So no file outside of
the root is ever written, nor one in a folder beside it whose name only starts like the root's. -/
theorem resolve_confined (hroot : sink.root.Normal) (hslash : sink.root.text ≠ "/")
    (path : String) :
    (∀ target, sink.resolve path = .ok target ↔
      target = sink.normalized path ∧ ∃ names, names ≠ [] ∧
        (∀ name ∈ names, Path.IsName name) ∧
        target.text = sink.root.text ++ "/" ++ Text.join "/" names) ∧
    (sink.resolve path = .error (.isRoot path) ↔ sink.normalized path = sink.root) ∧
    (sink.resolve path = .error (.escapes path) ↔
      sink.normalized path ≠ sink.root ∧ ¬ sink.root.IsBelow (sink.normalized path)) ∧
    ∀ disk data,
      (∀ fault, sink.resolve path = .error fault →
        sink.write disk path data = (sink, disk, .error fault)) ∧
      (∀ target, (sink.write disk path data).2.2 = .ok target →
        sink.resolve path = .ok target) ∧
      (∀ place, (sink.write disk path data).2.1.file? place ≠ disk.file? place →
        ∃ names, names ≠ [] ∧ (∀ name ∈ names, Path.IsName name) ∧
          place = sink.root.place ++ names) ∧
      ∀ front name more, sink.root.place = front ++ [name] → more ≠ "" →
        ∀ place, front ++ [name ++ more] <+: place →
          (sink.write disk path data).2.1.file? place = disk.file? place := by
  refine ⟨fun target => resolve_eq_ok_iff_isBelow hroot hslash, resolve_eq_error_isRoot_iff hroot,
    resolve_eq_error_escapes_iff hroot hslash, fun disk data => ?_⟩
  refine ⟨?_, ?_, fun place hne => exists_names_of_file?_ne hroot hne, ?_⟩
  · intro fault hfault
    exact write_of_resolve_eq_error hfault disk data
  · intro target htarget
    obtain ⟨grown, -, ⟨fault, hwrite⟩ | ⟨found, hresolve, -, -, -, -, -, hwrite⟩⟩ :=
      write_cases hroot disk path data
    · rw [hwrite] at htarget
      cases htarget
    · rw [hwrite] at htarget
      rw [hresolve, Except.ok.inj htarget]
  · -- a place below the root has the root's own name, and nothing can stand behind that
    intro front name more hlast hmore place hbeside
    refine Classical.byContradiction fun hne => hmore ?_
    obtain ⟨names, -, -, rfl⟩ := exists_names_of_file?_ne hroot hne
    rw [hlast, List.append_assoc, List.prefix_append_right_inj] at hbeside
    have hname : name ++ more = name := by simpa using hbeside
    simpa using hname

/-- A path that climbs above the root and comes back is accepted, and one that leads beside the root
is refused. -/
theorem resolve_confined_of_climbing :
    let sink : Sink := ⟨⟨"/", ["out"]⟩, []⟩
    sink.root.Normal ∧ sink.root.text ≠ "/" ∧
      sink.resolve "a/../../out/./b\\c" = .ok ⟨"/", ["out", "b", "c"]⟩ ∧
      sink.resolve "../outer/a" = .error (.escapes "../outer/a") := by
  intro sink
  have hroot : sink.root.Normal := by decide
  have hslash : sink.root.text ≠ "/" := by decide
  refine ⟨hroot, hslash, ?_, ?_⟩
  · apply ((resolve_confined hroot hslash _).1 _).mpr
    exact ⟨by decide, ["b", "c"], by decide, by decide, by decide⟩
  · apply (resolve_confined hroot hslash _).2.2.1.mpr
    refine ⟨by decide, ?_⟩
    rw [AbsolutePath.isBelow_iff hroot hslash (normal_normalized hroot _)]
    decide

end Sink

end ArchiveExport
