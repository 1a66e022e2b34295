import ArchiveExport.Proofs.Entry.Resolution
import ArchiveExport.Proofs.Export.Deeds
import ArchiveExport.Proofs.Export.Paths
import ArchiveExport.Proofs.Export.Script

/-!
# Outputs of a pattern

The entries that a pattern names share no key, and with the standard rules nothing that is derived
from one of them has the path of something derived from another. So nothing that is written for a
pattern is lost, unless a key in some other spelling or a key that is called like an output is
written, too.
-/

namespace ArchiveExport

namespace Entry

variable {suffixes keys : List String} {pattern : String}

/-- The name of a key is the key or its stem. -/
theorem form_cases (suffixes : List String) (key : String) :
    form suffixes key = key ∨ ∃ ending, IsExtension ending ∧ EndsInName (form suffixes key) ∧
      key = form suffixes key ++ "." ++ ending := by
  rw [form, canonical]
  rcases splitExtension_cases key with hplain | ⟨name, ending, hname, hending, hkey, hsplit⟩
  · left
    rw [hplain]
    simp
  · rw [hsplit]
    simp only
    split
    · exact Or.inr ⟨ending, hending, hname, hkey⟩
    · exact Or.inl rfl

/-- The name of a plain key ends in a name, and what is derived from it is plain. -/
theorem form_of_plain {key : String} (h : Path.Plain key) :
    EndsInName (form suffixes key) ∧ Path.Stem (form suffixes key) := by
  rcases form_cases suffixes key with hsame | ⟨ending, hending, hname, hkey⟩
  · rw [hsame]
    exact ⟨h.exists_last, h.stem⟩
  · have hslash : '/' ∉ ("." ++ ending).toList := by simp [hending.noSlash]
    refine ⟨hname, Path.Stem.of_append hslash ?_⟩
    rw [← String.append_assoc, ← hkey]
    exact h.stem

end Entry

namespace Dispatcher

variable {d : Dispatcher} {mode : Mode} {entry : Entry} {path : String}
  {document images members : List (String × Bytes)}

/-- The paths of an entry's outputs: derived ones, and its members in raw modes. -/
def Lists (d : Dispatcher) (mode : Mode) (entry : Entry) (path : String) : Prop :=
  d.Derives mode entry.identifier path ∨ (mode.raw = true ∧ path ∈ entry.members)

/-- No member of an entry among some is called like an output derived from one of them. -/
def Clear (d : Dispatcher) (mode : Mode) (entries : List Entry) : Prop :=
  mode.raw = true → ∀ entry ∈ entries, ∀ path, d.Derives mode entry.identifier path →
    ∀ other ∈ entries, path ∉ other.members

theorem Arranged.lists (h : d.Arranged entry mode document images members) :
    ∀ w ∈ document ++ images ++ members, d.Lists mode entry w.1 := by
  intro w hw
  rcases List.mem_append.mp hw with hderived | hmember
  · exact Or.inl (h.derives w hderived)
  · rcases h.members with rfl | ⟨hmode, hkeys⟩
    · simp at hmember
    · exact Or.inr ⟨hmode, hkeys.subset (List.mem_map_of_mem hmember)⟩

theorem Arranged.nodup {entries : List Entry} (htable : d.table = .standard)
    (hnaming : d.naming = {}) (hclear : d.Clear mode entries) (hentry : entry ∈ entries)
    (hname : Entry.EndsInName entry.identifier) (hmembers : entry.members.Nodup)
    (h : d.Arranged entry mode document images members) :
    ((document ++ images ++ members).map Prod.fst).Nodup := by
  rw [List.map_append, List.nodup_append']
  refine ⟨h.nodup_derived htable hnaming hname, ?_, ?_⟩
  · rcases h.members with rfl | ⟨-, hkeys⟩
    · exact .nil
    · exact hmembers.sublist hkeys
  · rcases h.members with rfl | ⟨hmode, hkeys⟩
    · simp
    · intro path hderived hmember
      obtain ⟨w, hw, rfl⟩ := List.mem_map.mp hderived
      exact hclear hmode entry hentry w.1 (h.derives w hw) entry hentry (hkeys.subset hmember)

/-- Entries of different names without common members list no path in common. -/
theorem not_lists_of_lists {other : Entry} {entries : List Entry} (htable : d.table = .standard)
    (hnaming : d.naming = {}) (hclear : d.Clear mode entries) (hentry : entry ∈ entries)
    (hother : other ∈ entries) (hname : Entry.EndsInName entry.identifier)
    (hname' : Entry.EndsInName other.identifier) (hne : entry.identifier ≠ other.identifier)
    (hmembers : ∀ key ∈ entry.members, key ∉ other.members) (h : d.Lists mode entry path) :
    ¬ d.Lists mode other path := by
  intro h'
  rcases h with hderived | ⟨hmode, hmember⟩
  · rcases h' with hderived' | ⟨hmode, hmember'⟩
    · exact hne (eq_of_derives htable hnaming hname hname' hderived hderived')
    · exact hclear hmode entry hentry path hderived other hother hmember'
  · rcases h' with hderived' | ⟨-, hmember'⟩
    · exact hclear hmode other hother path hderived' entry hentry hmember
    · exact hmembers path hmember hmember'

/-- Entries that can be exported together: different plain names and no key in common. -/
structure Separate (entries : List Entry) : Prop where
  name : ∀ entry ∈ entries, Entry.EndsInName entry.identifier
  stem : ∀ entry ∈ entries, Path.Stem entry.identifier
  plain : ∀ entry ∈ entries, ∀ key ∈ entry.members, Path.Plain key
  nodup : ∀ entry ∈ entries, entry.members.Nodup
  pairwise : entries.Pairwise fun a b =>
    a.identifier ≠ b.identifier ∧ ∀ key ∈ a.members, key ∉ b.members

/-- What entries list is plain. -/
theorem Separate.plain_of_lists {entries : List Entry} (h : Separate entries)
    (hnaming : d.naming = {}) (hentry : entry ∈ entries) (hlists : d.Lists mode entry path) :
    Path.Plain path := by
  rcases hlists with hderived | ⟨-, hmember⟩
  · exact plain_of_derives hnaming (h.stem entry hentry) hderived
  · exact h.plain entry hentry path hmember

/-- No path is written twice for entries that can be exported together. -/
theorem nodup_of_separate {all entries : List Entry} {deeds : List Deed}
    (htable : d.table = .standard) (hnaming : d.naming = {}) (hclear : d.Clear mode all)
    (hall : Separate all) (hentries : entries.Sublist all)
    (hdeeds : List.Forall₂ (fun entry deed => ∃ document images members,
      deed.writes = document ++ images ++ members ∧
        d.Arranged entry mode document images members) entries deeds) :
    ((deeds.flatMap Deed.writes).map Prod.fst).Nodup ∧
      ∀ w ∈ deeds.flatMap Deed.writes, ∃ entry ∈ entries, d.Lists mode entry w.1 := by
  induction hdeeds with
  | nil => simp
  | @cons entry deed entries deeds hdeed _ ih =>
      obtain ⟨hrest, hlists⟩ := ih ((List.sublist_cons_self _ _).trans hentries)
      obtain ⟨document, images, members, hwrites, harranged⟩ := hdeed
      have hentry : entry ∈ all := hentries.subset List.mem_cons_self
      have hown : ∀ w ∈ deed.writes, d.Lists mode entry w.1 := by
        rw [hwrites]
        exact harranged.lists
      obtain ⟨hapart, -⟩ := List.pairwise_cons.mp (hall.pairwise.sublist hentries)
      constructor
      · rw [List.flatMap_cons, List.map_append, List.nodup_append']
        refine ⟨?_, hrest, ?_⟩
        · rw [hwrites]
          exact harranged.nodup htable hnaming hclear hentry (hall.name entry hentry)
            (hall.nodup entry hentry)
        · intro path hfirst hlater
          obtain ⟨w, hw, rfl⟩ := List.mem_map.mp hfirst
          obtain ⟨w', hw', hsame⟩ := List.mem_map.mp hlater
          obtain ⟨other, hother, hlisted⟩ := hlists w' hw'
          have hother' : other ∈ all :=
            hentries.subset (List.mem_cons_of_mem entry hother)
          obtain ⟨hne, hmembers⟩ := hapart other hother
          rw [hsame] at hlisted
          exact not_lists_of_lists htable hnaming hclear hentry hother' (hall.name entry hentry)
            (hall.name other hother') hne hmembers (hown w hw) hlisted
      · intro w hw
        rw [List.flatMap_cons, List.mem_append] at hw
        rcases hw with hfirst | hlater
        · exact ⟨entry, List.mem_cons_self, hown w hfirst⟩
        · obtain ⟨other, hother, hlisted⟩ := hlists w hlater
          exact ⟨other, List.mem_cons_of_mem entry hother, hlisted⟩

end Dispatcher

namespace Entry

variable {suffixes keys : List String} {pattern : String}

/-- The entries of a pattern with wildcards can be exported together where the keys that it names
are plain. -/
theorem separate_resolve (hwildcard : Glob.hasWildcard pattern = true) (hkeys : keys.Nodup)
    (hplain : ∀ key ∈ keys, Names suffixes pattern key → Path.Plain key) :
    Dispatcher.Separate (resolve suffixes pattern keys) := by
  have hmember : ∀ entry ∈ resolve suffixes pattern keys, ∀ key ∈ entry.members,
      key ∈ keys ∧ Names suffixes pattern key ∧ form suffixes key = entry.identifier := by
    intro entry hentry key hkey
    rw [((mem_resolve_iff hwildcard).mp hentry).2.1] at hkey
    simpa [membersOf] using hkey
  have hnamed : ∀ entry ∈ resolve suffixes pattern keys,
      EndsInName entry.identifier ∧ Path.Stem entry.identifier := by
    intro entry hentry
    obtain ⟨key, hkey⟩ :=
      List.exists_mem_of_ne_nil _ ((mem_resolve_iff hwildcard).mp hentry).2.2
    obtain ⟨hin, hnames, hform⟩ := hmember entry hentry key hkey
    exact hform ▸ form_of_plain (hplain key hin hnames)
  refine ⟨fun entry hentry => (hnamed entry hentry).1, fun entry hentry => (hnamed entry hentry).2,
    ?_, ?_, ?_⟩
  · intro entry hentry key hkey
    obtain ⟨hin, hnames, -⟩ := hmember entry hentry key hkey
    exact hplain key hin hnames
  · intro entry hentry
    rw [((mem_resolve_iff hwildcard).mp hentry).2.1]
    exact hkeys.filter _
  · have hdistinct : (resolve suffixes pattern keys).Pairwise
        fun a b => a.identifier ≠ b.identifier := by
      rw [← List.pairwise_map, map_identifier_resolve hwildcard]
      exact nodup_keys_groupBy _ keys
    refine hdistinct.imp_of_mem fun ha hb hne => ⟨hne, fun key hkey hkey' => hne ?_⟩
    rw [← (hmember _ ha key hkey).2.2, (hmember _ hb key hkey').2.2]

end Entry

namespace Exporter

variable {e : Exporter}

/-- Whatever a pattern with wildcards writes goes below the root of the output folder. Where the
keys that it names are plain paths, and in raw modes none of them is called like an output that is
derived from one of its entries, all that is written goes to different files, and at the end each
file holds what was written for the one entry that lists it. -/
theorem exportPattern_keeps_outputs (hworkers : e.workers ≤ 1)
    (htable : e.dispatcher.table = .standard) (hnaming : e.dispatcher.naming = {}) (text : String)
    (line : Int) (s : Session) (hlog : s.log = none) (hroot : s.site.sink.root.Normal)
    (hkeys : s.site.archive.keys.Nodup)
    (hwildcard : Glob.hasWildcard (e.dispatcher.normalize text) = true) :
    let keys := s.site.archive.keys
    let pattern := e.dispatcher.normalize text
    let entries := Entry.resolve e.suffixes pattern keys
    let sink := s.site.sink
    let t := e.exportPattern text line s
    ∃ deeds,
      Deeds e.dispatcher none (entries.map fun entry => (entry, s.mode)) s.site deeds t.site ∧
      t.tally.outcomes = s.tally.outcomes ++ deeds.map Deed.outcome ∧
      (∀ deed ∈ deeds, deed.outcome.outputs = deed.writes.map Prod.fst) ∧
      (∀ w ∈ deeds.flatMap Deed.writes, ∃ target, sink.resolve w.1 = .ok target ∧
        sink.root.place <+: target.place ∧ target.place ≠ sink.root.place) ∧
      ((∀ key ∈ keys, Entry.Names e.suffixes pattern key → Path.Plain key) →
        e.dispatcher.Clear s.mode entries →
        (deeds.flatMap Deed.writes).Pairwise (fun a b => sink.resolve a.1 ≠ sink.resolve b.1) ∧
        ∀ w ∈ deeds.flatMap Deed.writes, ∀ target, sink.resolve w.1 = .ok target →
          t.site.disk.file? target.place = some w.2) := by
  intro keys pattern entries sink t
  obtain ⟨hextends, -⟩ := extends_exportPattern hworkers text line s
  obtain ⟨outcomes, houtcomes, hwork⟩ := hextends.work
  obtain ⟨deeds, hdeeds, rfl⟩ := hwork.exists_deeds
  have hagenda : e.agenda keys [(text, s.mode)] = entries.map fun entry => (entry, s.mode) :=
    List.append_nil _
  rw [hlog, hagenda] at hdeeds
  have hforall := hdeeds.forall₂_agenda
  have hwrote := hdeeds.wrote hroot
  refine ⟨deeds, hdeeds, houtcomes, ?_, ?_, fun hplain hclear => ?_⟩
  · intro deed hdeed
    obtain ⟨item, -, -, houtputs, -⟩ := exists_of_forall₂ hforall hdeed
    exact houtputs
  · intro w hw
    obtain ⟨target, htarget⟩ := hwrote.resolved w hw
    obtain ⟨-, hbelow, hne, -, hplace⟩ := Sink.resolve_eq_ok_iff.mp htarget
    rw [← hplace] at hbelow hne
    exact ⟨target, htarget, hbelow, hne⟩
  · have hseparate : Dispatcher.Separate entries :=
      Entry.separate_resolve hwildcard hkeys hplain
    have hdone : List.Forall₂ (fun entry deed => ∃ document images members,
        deed.writes = document ++ images ++ members ∧
          e.dispatcher.Arranged entry s.mode document images members) entries deeds :=
      (List.forall₂_map_left_iff.mp hforall).imp fun entry deed h => h.2.2
    obtain ⟨hnodup, hlists⟩ := Dispatcher.nodup_of_separate htable hnaming hclear hseparate
      (.refl entries) hdone
    have hplains : ∀ w ∈ deeds.flatMap Deed.writes, Path.Plain w.1 := by
      intro w hw
      obtain ⟨entry, hentry, hlisted⟩ := hlists w hw
      exact hseparate.plain_of_lists hnaming hentry hlisted
    have hplaces : (deeds.flatMap Deed.writes).Pairwise
        fun a b => sink.place a.1 ≠ sink.place b.1 := by
      refine (List.pairwise_map.mp hnodup).imp_of_mem fun ha hb hne hsame => hne ?_
      exact Sink.eq_of_place_eq (hplains _ ha) (hplains _ hb) hsame
    constructor
    · refine hplaces.imp_of_mem fun ha hb hne hsame => hne ?_
      obtain ⟨target, htarget⟩ := hwrote.resolved _ ha
      have htarget' := htarget
      rw [hsame] at htarget'
      rw [← (Sink.normal_of_resolve hroot htarget).2.1,
        ← (Sink.normal_of_resolve hroot htarget').2.1]
    · intro w hw target htarget
      rw [(Sink.normal_of_resolve hroot htarget).2.1]
      exact hwrote.held (List.pairwise_map.mpr hplaces) w hw (by simp)

theorem resolve_twoFiles :
    Entry.resolve plainExporter.suffixes (plainExporter.dispatcher.normalize "*")
      twoFiles.site.archive.keys = [⟨"a.ini", "*", ["a.ini"]⟩, ⟨"b.ini", "*", ["b.ini"]⟩] := by
  rw [keys_twoFiles]
  decide +kernel

/-- Neither file is called like the text of one of them. -/
theorem clear_twoFiles :
    plainExporter.dispatcher.Clear twoFiles.mode
      (Entry.resolve plainExporter.suffixes (plainExporter.dispatcher.normalize "*")
        twoFiles.site.archive.keys) := by
  rw [resolve_twoFiles]
  intro _ entry hentry path hderives other hother
  have hpath : path = entry.identifier ++ ".txt" ∨ path = entry.identifier ++ ".json" := by
    rcases hderives with ⟨-, -, hdocument⟩ | ⟨htexture, -⟩
    · exact Dispatcher.documentPath_eq_ok hdocument
    · simp [twoFiles, folderSession] at htexture
  simp only [List.mem_cons, List.not_mem_nil, or_false] at hentry hother
  rcases hpath with rfl | rfl <;> rcases hentry with rfl | rfl <;>
    rcases hother with rfl | rfl <;> decide

theorem exportPattern_keeps_outputs_of_twoFiles :
    twoFiles.site.archive.keys.Nodup ∧
      ∃ deeds, Deeds plainExporter.dispatcher none
          [(⟨"a.ini", "*", ["a.ini"]⟩, twoFiles.mode), (⟨"b.ini", "*", ["b.ini"]⟩, twoFiles.mode)]
          twoFiles.site deeds (plainExporter.exportPattern "*" 0 twoFiles).site ∧
        (deeds.flatMap Deed.writes).Pairwise fun a b =>
          twoFiles.site.sink.resolve a.1 ≠ twoFiles.site.sink.resolve b.1 := by
  have hkeys : twoFiles.site.archive.keys.Nodup := by
    rw [keys_twoFiles]
    decide
  have hplain : ∀ key ∈ twoFiles.site.archive.keys, Path.Plain key := by
    rw [keys_twoFiles]
    decide
  obtain ⟨deeds, hdeeds, -, -, -, hkept⟩ := exportPattern_keeps_outputs (e := plainExporter)
    (by decide) rfl rfl "*" 0 twoFiles rfl (by decide) hkeys (by decide)
  rw [resolve_twoFiles] at hdeeds
  exact ⟨hkeys, deeds, hdeeds, (hkept (fun key hkey _ => hplain key hkey) clear_twoFiles).1⟩

/-- A session on a file of text and a file that is called like the text of the first one. -/
def namesakes : Session :=
  folderSession [("a.ini", [49]), ("a.ini.txt", [50])] { raw := true, structured := true }

theorem resolve_namesakes :
    Entry.resolve plainExporter.suffixes (plainExporter.dispatcher.normalize "a*")
        namesakes.site.archive.keys =
      [⟨"a.ini", "a*", ["a.ini"]⟩, ⟨"a.ini.txt", "a*", ["a.ini.txt"]⟩] := by
  have hkeys : namesakes.site.archive.keys = ["a.ini", "a.ini.txt"] :=
    List.mergeSort_of_pairwise (by decide)
  rw [hkeys]
  decide +kernel

/-- Two entries list one path, and its file does not hold what was written for the first one. -/
theorem exportPattern_overwrites_namesake :
    (plainExporter.exportPattern "a*" 0 namesakes).tally.outcomes.map
        (fun o => (o.identifier, o.outputs)) =
      [("a.ini", ["a.ini.txt", "a.ini"]), ("a.ini.txt", ["a.ini.txt.txt", "a.ini.txt"])] ∧
    (plainExporter.dispatcher.dispatch ⟨"a.ini", "a*", ["a.ini"]⟩ namesakes.mode).writes
      namesakes.site = [("a.ini.txt", [49]), ("a.ini", [49])] ∧
    (plainExporter.exportPattern "a*" 0 namesakes).site.disk.file? ["out", "a.ini.txt"] =
      some [50] := by
  rw [exportPattern, plainExporter_eq_spelled]
  simp only [resolve_namesakes]
  decide +kernel

end Exporter

end ArchiveExport
