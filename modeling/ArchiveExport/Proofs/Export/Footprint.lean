import ArchiveExport.Proofs.Disk.Tree
import ArchiveExport.Proofs.Export.Conflicts

/-!
# What writing an output leaves alone

An output is written exactly where its path is accepted, its text can be encoded, no file is on the
way, no folder is in its place and all names fit. Whether it is written or not, nothing that is on
the disk goes away or becomes something else, and nothing changes but on the way to its place.
-/

namespace ArchiveExport

namespace Disk

variable {d e : Disk} {lead name : String} {front names : Path} {data : Bytes}

/-- A file can be put at a path, as far as the disk knows: the path and its names fit, no file is
on the way, and no folder is at its end. -/
structure Admits (d : Disk) (p : AbsolutePath) : Prop where
  fits : p.Fits
  names : ∀ name ∈ p.place, name.utf8ByteSize ≤ maxName ∧ Char.ofNat 0 ∉ name.toList
  way : ∀ above, above <+: p.place → above ≠ p.place → d.file? above = none
  last : d.node? p.place ≠ some .folder

/-- The way to a place is free where the path and its names fit and no file is above the place. -/
theorem wayFault?_eq_none_iff_fits (h : (AbsolutePath.mk lead names).Normal) (hne : names ≠ []) :
    d.wayFault? lead names = none ↔
      (AbsolutePath.mk lead names).Fits ∧
        (∀ name ∈ names, name.utf8ByteSize ≤ maxName ∧ Char.ofNat 0 ∉ name.toList) ∧
        ∀ above, above <+: names → above ≠ names → d.file? above = none := by
  have hnormal : ∀ {above : Path}, above <+: names → (AbsolutePath.mk lead above).Normal :=
    fun habove => ⟨h.lead, fun other hother => h.isName other (habove.subset hother)⟩
  rw [wayFault?_eq_none_iff]
  constructor
  · intro hfree
    obtain ⟨front, last, rfl⟩ := (List.eq_nil_or_concat' names).resolve_left hne
    obtain ⟨hnul, hsize, -, -⟩ := hindrance?_eq_none_iff.mp (hfree front last List.prefix_rfl)
    rw [AbsolutePath.nul_not_mem_text_iff h] at hnul
    refine ⟨hsize, fun name hname => ⟨?_, hnul name hname⟩, fun above habove hshort => ?_⟩
    · exact size_le_of_wayFault? (wayFault?_eq_none_iff.mpr hfree) name hname
    · obtain ⟨rest, hrest⟩ := habove
      obtain ⟨next, more, rfl⟩ := List.exists_cons_of_ne_nil (show rest ≠ [] by
        rintro rfl
        exact hshort (by rw [← hrest, List.append_nil]))
      have hpre : above ++ [next] <+: front ++ [last] := ⟨more, by rw [← hrest]; simp⟩
      exact (hindrance?_eq_none_iff.mp (hfree above next hpre)).2.2.1
  · rintro ⟨hfits, hnames, hway⟩ front name hpre
    rw [hindrance?_eq_none_iff, AbsolutePath.nul_not_mem_text_iff (hnormal hpre)]
    refine ⟨fun other hother => (hnames other (hpre.subset hother)).2,
      (AbsolutePath.size_text_le hpre).trans hfits,
      hway front ((List.prefix_append _ _).trans hpre) ?_, (hnames name (hpre.subset (by simp))).1⟩
    rintro rfl
    exact Path.ne_concat_of_prefix hpre name rfl

theorem writeFault?_eq_none_iff_admits (h : (AbsolutePath.mk lead (front ++ [name])).Normal) :
    d.writeFault? lead front name = none ↔ d.Admits ⟨lead, front ++ [name]⟩ := by
  have hlast : d.hasFolder (front ++ [name]) = false ↔
      d.node? (front ++ [name]) ≠ some .folder := by
    rw [hasFolder, decide_eq_false_iff_not]
  have hsplit : d.writeFault? lead front name = none ↔
      d.wayFault? lead (front ++ [name]) = none ∧
        d.node? (front ++ [name]) ≠ some .folder := by
    constructor
    · intro hfree
      obtain ⟨hway, -, hnext, hfolder⟩ := writeFault?_eq_none hfree
      rw [wayFault?_concat, hway, hnext]
      exact ⟨rfl, hfolder⟩
    · rintro ⟨hway, hfolder⟩
      obtain ⟨hfront, hnext⟩ := Option.or_eq_none_iff.mp (wayFault?_concat d lead front name ▸ hway)
      have hfile := (hindrance?_eq_none_iff.mp hnext).2.2.1
      rw [writeFault?, madeAnswer_eq_ok_iff.mpr ⟨hfront, hfile⟩]
      simp [hnext, hlast.mpr hfolder]
  rw [hsplit, wayFault?_eq_none_iff_fits h (by simp)]
  constructor
  · rintro ⟨⟨hfits, hnames, hway⟩, hfolder⟩
    exact ⟨hfits, hnames, hway, hfolder⟩
  · rintro ⟨hfits, hnames, hway, hfolder⟩
    exact ⟨⟨hfits, hnames, hway⟩, hfolder⟩

/-- What is on the first disk is on the second one, a file as a file and a folder as a folder. -/
def Retains (d e : Disk) : Prop :=
  ∀ place, (d.node? place = some .folder → e.node? place = some .folder) ∧
    ((d.file? place).isSome → (e.file? place).isSome)

theorem Retains.refl (d : Disk) : d.Retains d := fun _ => ⟨id, id⟩

namespace Written

theorem retains (h : d.Written lead front name data e) : d.Retains e :=
  fun place => h.upholds place place (Or.inl List.prefix_rfl)

/-- Only places on the way change. -/
theorem prefix_of_node?_ne (h : d.Written lead front name data e) {place : Path}
    (hne : e.node? place ≠ d.node? place) : place <+: front ++ [name] := by
  by_cases hlast : place = front ++ [name]
  · rw [hlast]
  · rw [h.node?_eq hlast] at hne
    split at hne
    next hnew => exact hnew.1.trans (List.prefix_append _ _)
    next => exact absurd rfl hne

/-- Where the file cannot be written, all files are as they were. -/
theorem file?_eq_of_fault (h : d.Written lead front name data e) {fault : Fault}
    (hfault : d.writeFault? lead front name = some fault) (place : Path) :
    e.file? place = d.file? place := by
  by_cases hlast : place = front ++ [name]
  · rw [hlast, file?, file?, h.node?_last, if_neg (by simp [hfault])]
  · exact h.file?_eq hlast

end Written

end Disk

namespace Sink

open Text.Charset (noOthers)

variable {sink : Sink} {charsets : Text.Charset.Registry} {disk : Disk} {path : String}

/-- What can be written: octets, or a text in the encoding of a name. -/
inductive Content where
  | octets (data : Bytes)
  | text (written encoding : String)

/-- The octets of a content. -/
def Content.encode (charsets : Text.Charset.Registry) : Content → Except Text.Charset.Fault Bytes
  | .octets data => .ok data
  | .text written encoding => Text.Charset.encodeNamed charsets encoding written

/-- Write a content under a relative path. -/
def put (sink : Sink) (charsets : Text.Charset.Registry) (disk : Disk) (path : String)
    (content : Content) : Sink × Disk × Except Fault AbsolutePath :=
  match content with
  | .octets data => sink.write disk path data
  | .text written encoding => sink.writeText charsets disk path written encoding

/-- A content is written as its octets, once the path is accepted. -/
theorem put_eq (sink : Sink) (charsets : Text.Charset.Registry) (disk : Disk) (path : String)
    (content : Content) :
    sink.put charsets disk path content =
      match sink.resolve path with
      | .error fault => (sink, disk, .error fault)
      | .ok _ =>
        match content.encode charsets with
        | .error fault => (sink, disk, .error (.charset fault))
        | .ok data => sink.write disk path data := by
  cases content with
  | octets data =>
      simp only [put, Content.encode]
      cases hresolve : sink.resolve path with
      | error fault => exact write_of_resolve_eq_error hresolve disk data
      | ok target => rfl
  | text written encoding =>
      cases hresolve : sink.resolve path with
      | error fault => simp only [put, writeText, hresolve]
      | ok target =>
          cases hencoded : Text.Charset.encodeNamed charsets encoding written with
          | error fault => simp only [put, writeText, Content.encode, hresolve, hencoded]
          | ok data => simp only [put, writeText, Content.encode, hresolve, hencoded]

/-- What becomes of the disk and of the output folder: the result of writing a content. -/
structure Frames (sink : Sink) (charsets : Text.Charset.Registry) (disk : Disk) (path : String)
    (content : Content) (result : Sink × Disk × Except Fault AbsolutePath) : Prop where
  /-- A path that is refused and a text that has no octets leave all as it is. -/
  refused :
    (∀ target, sink.resolve path ≠ .ok target) ∨ (∀ data, content.encode charsets ≠ .ok data) →
      result.2.1 = disk
  /-- A write that fails leaves the files and the list of outputs as they are. -/
  failed : ∀ fault, result.2.2 = .error fault →
    result.1 = sink ∧ ∀ place, result.2.1.file? place = disk.file? place
  /-- A write that succeeds changes one file and adds its path to the list of outputs. -/
  succeeded : ∀ target, result.2.2 = .ok target →
    sink.resolve path = .ok target ∧
      result.1 = { sink with written := sink.written ++ [path] } ∧
      (∃ data, content.encode charsets = .ok data ∧ result.2.1.file? target.place = some data) ∧
      ∀ place, place ≠ target.place → result.2.1.file? place = disk.file? place
  /-- Nothing goes away or becomes something else. -/
  retains : disk.Retains result.2.1
  /-- Nothing changes but on the way to the file. -/
  changed : ∀ place, result.2.1.node? place ≠ disk.node? place →
    ∃ target, sink.resolve path = .ok target ∧ place <+: target.place
  /-- A write succeeds exactly where nothing is in its way. -/
  succeeds_iff : (∃ target, result.2.2 = .ok target) ↔
    ∃ target, sink.resolve path = .ok target ∧ (∃ data, content.encode charsets = .ok data) ∧
      disk.Admits target

theorem Frames.of_unchanged {content : Content} {fault : Fault}
    (h : (∀ target, sink.resolve path ≠ .ok target) ∨
      ∀ data, content.encode charsets ≠ .ok data) :
    sink.Frames charsets disk path content (sink, disk, .error fault) where
  refused := fun _ => rfl
  failed := fun _ _ => ⟨rfl, fun _ => rfl⟩
  succeeded := fun _ hok => by simp at hok
  retains := .refl disk
  changed := fun _ hne => absurd rfl hne
  succeeds_iff := by
    constructor
    · rintro ⟨target, hok⟩
      simp at hok
    · rintro ⟨target, hresolve, ⟨data, hdata⟩, -⟩
      rcases h with hrefused | hcannot
      · exact absurd hresolve (hrefused target)
      · exact absurd hdata (hcannot data)

/-- Writing an output, octets or a text, either fails or succeeds. Where it fails, no file appears,
disappears or changes, and the list of outputs stays as it is; if the path was refused, or the text
has no octets, the disk is the same. Where it succeeds, the file has exactly the content, all other
files are the same, and the path is added to the list. Either way what is there stays what it is,
and only on the way to the file something is added. It succeeds exactly where the path is accepted,
the text has octets, no file is on the way, no folder in its place, and all names fit. -/
theorem put_frames (hroot : sink.root.Normal) (charsets : Text.Charset.Registry) (disk : Disk)
    (path : String) (content : Content) :
    sink.Frames charsets disk path content (sink.put charsets disk path content) := by
  rw [put_eq]
  cases hresolve : sink.resolve path with
  | error fault => exact .of_unchanged (Or.inl fun target => by simp [hresolve])
  | ok target =>
      cases hencode : content.encode charsets with
      | error fault => exact .of_unchanged (Or.inr fun data => by simp [hencode])
      | ok data =>
          obtain ⟨front, name, rfl, -, -, hne⟩ := exists_last_of_resolve hresolve
          obtain ⟨hnormal, -, -⟩ := normal_of_resolve hroot hresolve
          obtain ⟨after, hafter, hwrite⟩ := write_eq_of_resolve hroot hresolve hne disk data
          have hadmits := Disk.writeFault?_eq_none_iff_admits (d := disk) hnormal
          have hchanged : ∀ place, after.node? place ≠ disk.node? place → ∃ target,
              sink.resolve path = .ok target ∧ place <+: target.place :=
            fun place hdiffers => ⟨_, hresolve, hafter.prefix_of_node?_ne hdiffers⟩
          have haccepted : ¬ ((∀ target, sink.resolve path ≠ .ok target) ∨
              ∀ data, content.encode charsets ≠ .ok data) := by
            rintro (hrefused | hcannot)
            · exact hrefused _ hresolve
            · exact hcannot data hencode
          have hsucceeds : (∃ target, sink.resolve path = .ok target ∧
              (∃ data, content.encode charsets = .ok data) ∧ disk.Admits target) ↔
                disk.writeFault? sink.root.lead front name = none := by
            rw [hadmits]
            constructor
            · rintro ⟨target, htarget, -, hfree⟩
              rwa [← Except.ok.inj (hresolve.symm.trans htarget)] at hfree
            · exact fun hfree => ⟨_, hresolve, ⟨data, hencode⟩, hfree⟩
          simp only [hwrite]
          cases hfault : disk.writeFault? sink.root.lead front name with
          | some fault =>
              rw [hfault] at hsucceeds
              exact {
                refused := fun h => absurd h haccepted
                failed := fun _ _ => ⟨rfl, hafter.file?_eq_of_fault hfault⟩
                succeeded := fun _ hok => by simp at hok
                retains := hafter.retains
                changed := hchanged
                succeeds_iff := by rw [hsucceeds]; simp }
          | none =>
              rw [hfault] at hsucceeds
              have hlast : after.file? (front ++ [name]) = some data := by
                rw [Disk.file?, hafter.node?_last, if_pos hfault]
              exact {
                refused := fun h => absurd h haccepted
                failed := fun _ hfailed => by simp at hfailed
                succeeded := by
                  rintro target hok
                  obtain rfl := Except.ok.inj hok
                  exact ⟨hresolve, rfl, ⟨data, hencode, hlast⟩,
                    fun place hother => hafter.file?_eq hother⟩
                retains := hafter.retains
                changed := hchanged
                succeeds_iff := by rw [hsucceeds]; simp }

/-- A file on the way stays as it is, and beside it a text can be written in a folder of its own. -/
theorem put_frames_of_fileOnTheWay :
    let sink : Sink := ⟨⟨"/", ["out"]⟩, []⟩
    let disk := Disk.empty.putFile ["out", "a"] [1]
    sink.root.Normal ∧
      (sink.put noOthers disk "a/b" (.octets [2])).2.2 =
        .error (.disk (.refused .exists "/out/a")) ∧
      (sink.put noOthers disk "a/b" (.octets [2])).2.1.file? ["out", "a"] = some [1] ∧
      (sink.put noOthers disk "b/c" (.text "ü" "latin-1")).2.2 = .ok ⟨"/", ["out", "b", "c"]⟩ ∧
      (sink.put noOthers disk "b/c" (.text "ü" "latin-1")).2.1.file? ["out", "b", "c"] =
        some [0xFC] := by
  intro sink disk
  have hroot : sink.root.Normal := by decide
  have hblocked : (sink.put noOthers disk "a/b" (.octets [2])).2.2 =
      .error (.disk (.refused .exists "/out/a")) := by
    decide +kernel
  have hwritten : (sink.put noOthers disk "b/c" (.text "ü" "latin-1")).2.2 =
      .ok ⟨"/", ["out", "b", "c"]⟩ := by
    decide +kernel
  have hencode : (Content.text "ü" "latin-1").encode noOthers = .ok [0xFC] := by decide +kernel
  refine ⟨hroot, hblocked, ?_, hwritten, ?_⟩
  · rw [((put_frames hroot noOthers disk "a/b" (.octets [2])).failed _ hblocked).2]
    decide
  · obtain ⟨data, hdata, hfile⟩ :=
      ((put_frames hroot noOthers disk "b/c" (.text "ü" "latin-1")).succeeded _ hwritten).2.2.1
    rw [hfile, ← Except.ok.inj (hencode.symm.trans hdata)]

end Sink

end ArchiveExport
