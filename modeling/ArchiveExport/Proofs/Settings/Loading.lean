import ArchiveExport.Export.Exporter
import ArchiveExport.Proofs.Disk.Access
import ArchiveExport.Proofs.Json.Reading
import ArchiveExport.Proofs.Settings.Members
import ArchiveExport.Proofs.Text.WellFormed

/-!
# Loading settings

A settings file may hold any octets. Loading breaks off where they are no text, where a numeral is
too long to be read, where brackets are nested deeper than the stack has room for, and at a member
that cannot be told about; else it tells whether the file holds an object. What it holds is taken
over, the modes alone being checked: a value of the wrong kind under another name is found out only
when the setting is used. So loading leaves settings that can be used exactly if the values of four
names are fit for them.
-/

namespace ArchiveExport

open Text (Wide)

section Results

variable {α β ε : Type} {xs : List α}

theorem exists_map_eq_ok_iff {result : Except ε α} {f : α → β} :
    (∃ b, result.map f = .ok b) ↔ ∃ a, result = .ok a := by
  cases result <;> simp [Except.map]

theorem exists_bind_eq_ok_iff {result : Except ε α} {f : α → Except ε β} :
    (∃ b, result >>= f = .ok b) ↔ ∃ a, result = .ok a ∧ ∃ b, f a = .ok b := by
  cases result <;> simp [bind, Except.bind]

theorem exists_mapM_eq_ok_iff {f : α → Except ε β} :
    (∃ ys, xs.mapM f = .ok ys) ↔ ∀ x ∈ xs, ∃ y, f x = .ok y := by
  induction xs with
  | nil => simp [pure, Except.pure]
  | cons x xs ih =>
      rw [List.mapM_cons, List.forall_mem_cons, ← ih, exists_bind_eq_ok_iff]
      have hrest (y : β) :
          (∃ ys, (do let zs ← xs.mapM f; pure (y :: zs) : Except ε (List β)) = .ok ys) ↔
            ∃ zs, xs.mapM f = .ok zs := by
        rw [exists_bind_eq_ok_iff]
        exact exists_congr fun zs => and_iff_left ⟨y :: zs, rfl⟩
      simp only [hrest, exists_and_right]

end Results

namespace Settings

variable {s t : Settings} {stack : Stack} {name : String} {value : Json Wide}
  {members : List (Wide × Json Wide)} {notices : List Notice} {bs : Bytes} {disk : Disk}
  {working : Path}

/-! ### Settings that can be used -/

/-- Every property can be read, and what the settings describe can be made: how outputs are named,
and an exporter for any archive. -/
structure Usable (s : Settings) : Prop where
  property : ∀ environment property, ∃ value, s.get environment property = .ok value
  naming : ∃ naming, Exporter.namingOf s = .ok naming
  exporter : ∀ codecs table normalize label,
    ∃ e, Exporter.ofSettings s codecs table normalize label = .ok e

/-- A value is fit for the setting of a name: suffixes are texts, and three settings stand for
integers. Under other names any value is. -/
structure Fit (name : String) (value : Json Wide) : Prop where
  suffixes : name = "grouped_suffixes" →
    ∃ items, Setting.parts value = .ok items ∧ ∀ item ∈ items, ∃ text, item = .text text
  integer : name ∈ ["json_indent", "export_workers", "grf_cache_size_mb"] →
    ∃ n, Setting.integer value = .ok n

theorem exists_textFor_eq_ok_iff (operation : String) (item : Json Wide) :
    (∃ text, Setting.textFor operation item = .ok text) ↔ ∃ text, item = .text text := by
  cases item <;> simp [Setting.textFor]

theorem exists_groupedSuffixes_iff (s : Settings) :
    (∃ suffixes, s.groupedSuffixes = .ok suffixes) ↔
      ∃ items, Setting.parts (s.value "grouped_suffixes") = .ok items ∧
        ∀ item ∈ items, ∃ text, item = .text text := by
  have hitem (item : Json Wide) : (∃ suffix, (do
        return (← Setting.textFor "lower" item).lower.dropLeading '.' :
          Except Setting.Misuse Wide) = .ok suffix) ↔ ∃ text, item = .text text := by
    rw [exists_bind_eq_ok_iff, ← exists_textFor_eq_ok_iff "lower"]
    exact exists_congr fun text => and_iff_left ⟨_, rfl⟩
  rw [groupedSuffixes, exists_bind_eq_ok_iff]
  simp only [exists_mapM_eq_ok_iff, hitem]

/-- Settings can be used exactly if a mode is named and all values are fit. -/
theorem usable_iff (s : Settings) :
    s.Usable ↔ (∃ mode, s.mode = .ok mode) ∧ ∀ name, Fit name (s.value name) := by
  constructor
  · intro h
    have hget (property : Property) := h.property {} property
    constructor
    · -- the mode is made last, so its parts are found behind all the other steps
      obtain ⟨e, he⟩ := h.exporter .plain {} id ""
      obtain ⟨suffixes, -, hnaming⟩ := exists_bind_eq_ok_iff.mp ⟨e, he⟩
      obtain ⟨naming, -, hworkers⟩ := exists_bind_eq_ok_iff.mp hnaming
      obtain ⟨workers, -, hmode⟩ := exists_bind_eq_ok_iff.mp hworkers
      obtain ⟨mode, hmode, -⟩ := exists_bind_eq_ok_iff.mp hmode
      exact ⟨mode, hmode⟩
    · refine fun name => ⟨?_, fun hname => ?_⟩
      · rintro rfl
        exact (exists_groupedSuffixes_iff s).mp (exists_map_eq_ok_iff.mp (hget .groupedSuffixes))
      · simp only [List.mem_cons, List.not_mem_nil, or_false] at hname
        rcases hname with rfl | rfl | rfl
        · exact exists_map_eq_ok_iff.mp (hget .indent)
        · exact exists_map_eq_ok_iff.mp (exists_map_eq_ok_iff.mp (hget .workers))
        · exact exists_map_eq_ok_iff.mp (hget .cacheMegabytes)
  · rintro ⟨⟨mode, hmode⟩, hfit⟩
    obtain ⟨suffixes, hsuffixes⟩ := (exists_groupedSuffixes_iff s).mpr ((hfit _).suffixes rfl)
    obtain ⟨indent, hindent⟩ : ∃ n, s.indent = .ok n := (hfit _).integer (by simp)
    obtain ⟨workers, hworkers⟩ : ∃ n, s.workers = .ok n :=
      exists_map_eq_ok_iff.mpr ((hfit "export_workers").integer (by simp))
    obtain ⟨size, hsize⟩ : ∃ n, s.cacheMegabytes = .ok n := (hfit _).integer (by simp)
    obtain ⟨modes, hmodes, -⟩ := exists_bind_eq_ok_iff.mp ⟨mode, hmode⟩
    obtain ⟨naming, hnaming⟩ : ∃ naming, Exporter.namingOf s = .ok naming :=
      exists_bind_eq_ok_iff.mpr ⟨indent, hindent, _, rfl⟩
    refine ⟨fun environment property => ?_, ⟨naming, hnaming⟩,
      fun codecs table normalize label => ?_⟩
    · cases property with
      | defaultModes => exact ⟨_, congrArg (Except.map _) hmodes⟩
      | groupedSuffixes => exact ⟨_, congrArg (Except.map _) hsuffixes⟩
      | indent => exact ⟨_, congrArg (Except.map _) hindent⟩
      | workers => exact ⟨_, congrArg (Except.map _) hworkers⟩
      | cacheMegabytes => exact ⟨_, congrArg (Except.map _) hsize⟩
      | _ => exact ⟨_, rfl⟩
    · exact exists_bind_eq_ok_iff.mpr ⟨suffixes, hsuffixes, exists_bind_eq_ok_iff.mpr
        ⟨naming, hnaming, exists_bind_eq_ok_iff.mpr ⟨workers, hworkers, exists_bind_eq_ok_iff.mpr
          ⟨mode, hmode, _, rfl⟩⟩⟩⟩

/-! ### What a file leaves of their use -/

theorem exists_foldlM_eq_ok {α β ε : Type} {f : β → α → Except ε β} {xs : List α}
    (h : ∀ x ∈ xs, ∀ b, ∃ c, f b x = .ok c) (b : β) : ∃ c, xs.foldlM f b = .ok c := by
  induction xs generalizing b with
  | nil => exact ⟨b, rfl⟩
  | cons x xs ih =>
      obtain ⟨hx, hxs⟩ := List.forall_mem_cons.mp h
      obtain ⟨c, hc⟩ := hx b
      rw [List.foldlM_cons]
      exact exists_bind_eq_ok_iff.mpr ⟨c, hc, ih hxs c⟩

/-- Modes that have been checked make up a mode. -/
theorem AreModes.exists_mode {names : List String} (h : AreModes names)
    (hvalue : s.value? "default_modes" = some (listed names)) :
    ∃ mode, s.mode = .ok mode := by
  have hparts : s.defaultModes = .ok (names.map fun name => .text (.ofString name)) := by
    rw [defaultModes, value, hvalue]
    rfl
  refine exists_bind_eq_ok_iff.mpr ⟨_, hparts, exists_foldlM_eq_ok (fun item hitem mode => ?_) _⟩
  obtain ⟨name, hname, rfl⟩ := List.mem_map.mp hitem
  have hall : ∀ name ∈ knownModes, ∃ representation,
      Representation.ofName? name = some representation := by
    simp [knownModes, Representation.ofName?]
  obtain ⟨representation, hrepresentation⟩ := hall name (h.known name hname)
  refine exists_bind_eq_ok_iff.mpr ⟨.ofString name, rfl, mode.add representation, ?_⟩
  simp only [Wide.narrow_ofString, h.form name hname, hrepresentation]
  rfl

theorem mode_congr (h : t.value? "default_modes" = s.value? "default_modes") :
    t.mode = s.mode := by
  have hmodes : t.defaultModes = s.defaultModes := by
    rw [defaultModes, defaultModes, value, value, h]
  rw [mode, mode, hmodes]

/-- Whatever a file says, the modes can be used afterwards. -/
theorem TakesOver.exists_mode (h : TakesOver stack s members t notices)
    (hknown : "default_modes" ∈ s.values.keys) (hmode : ∃ mode, s.mode = .ok mode) :
    ∃ mode, t.mode = .ok mode := by
  by_cases hnamed : .ofString "default_modes" ∈ members.map Prod.fst
  · obtain ⟨⟨text, value⟩, hm, rfl⟩ := List.mem_map.mp hnamed
    have htaken : taken stack "default_modes" value = (modesOf stack value).map listed := if_pos rfl
    cases hmodes : modesOf stack value with
    | ok names =>
        rw [hmodes] at htaken
        exact (modesOf_eq_ok hmodes).exists_mode (h.held _ value hm hknown _ htaken)
    | error misuse =>
        rw [hmodes] at htaken
        rw [mode_congr (h.rejected _ value hm misuse htaken)]
        exact hmode
  · rw [mode_congr (h.unnamed _ hnamed)]
    exact hmode

/-- The names whose values have to be fit for their use. -/
def Checked (name : String) : Prop :=
  name = "grouped_suffixes" ∨ name ∈ ["json_indent", "export_workers", "grf_cache_size_mb"]

theorem Fit.congr {other : Json Wide} (h : Fit name value) (hsame : Checked name → other = value) :
    Fit name other where
  suffixes := fun hname => hsame (Or.inl hname) ▸ h.suffixes hname
  integer := fun hname => hsame (Or.inr hname) ▸ h.integer hname

/-- The value of such a name is taken over as it is. -/
theorem TakesOver.value_eq (h : TakesOver stack s members t notices)
    (hkeys : s.values.keys = standardValues.keys) (hm : (.ofString name, value) ∈ members)
    (hname : Checked name) : t.value name = value := by
  have hknown : name ∈ standardValues.keys ∧ name ≠ "default_modes" := by
    simp only [Checked, List.mem_cons, List.not_mem_nil, or_false] at hname
    rcases hname with hname | hname | hname | hname <;>
      (rw [hname]; decide)
  have htaken := taken_of_ne hknown.2 stack value
  rw [Settings.value, h.held name value hm (hkeys ▸ hknown.1) value htaken]
  rfl

/-- The values that members of a file have under names with a meaning are fit. -/
def FitMembers (members : List (Wide × Json Wide)) : Prop :=
  ∀ name value, (.ofString name, value) ∈ members → Fit name value

/-- After a file has been taken over the settings can be used exactly if its values are fit. -/
theorem TakesOver.usable_iff (h : TakesOver stack s members t notices)
    (hkeys : s.values.keys = standardValues.keys) (husable : s.Usable) :
    t.Usable ↔ FitMembers members := by
  obtain ⟨hmode, hfit⟩ := (Settings.usable_iff s).mp husable
  rw [Settings.usable_iff]
  constructor
  · rintro ⟨-, hfit⟩ name value hm
    exact (hfit name).congr fun hname => (h.value_eq hkeys hm hname).symm
  · refine fun hmembers => ⟨h.exists_mode (hkeys ▸ by decide) hmode, fun name => ?_⟩
    by_cases hnamed : .ofString name ∈ members.map Prod.fst
    · obtain ⟨⟨text, value⟩, hm, rfl⟩ := List.mem_map.mp hnamed
      exact (hmembers name value hm).congr (h.value_eq hkeys hm)
    · rw [Settings.value, h.unnamed name hnamed]
      exact hfit name

/-! ### Loading -/

/-- The octets of a file are a text that is read with a result. -/
def Says (stack : Stack) (bs : Bytes) (result : Except Json.Fault (Json Wide)) : Prop :=
  ∃ cs, Text.Utf8.decode bs = .ok cs ∧
    Json.readWithin stack.reading (Text.unifyLines cs) = result

theorem Says.eq {result other : Except Json.Fault (Json Wide)} (h : Says stack bs result)
    (h' : Says stack bs other) : result = other := by
  obtain ⟨cs, hcs, rfl⟩ := h
  obtain ⟨ds, hds, rfl⟩ := h'
  rw [hcs] at hds
  rw [Except.ok.inj hds]

theorem Says.wellFormed {result : Except Json.Fault (Json Wide)} (h : Says stack bs result) :
    Text.Utf8.WellFormed bs := by
  obtain ⟨cs, hcs, -⟩ := h
  exact Text.Utf8.spells_iff_wellFormed.mp (Text.Utf8.spells_iff_decode.mpr ⟨cs, hcs⟩)

theorem Says.nodup_names (h : Says stack bs (.ok (.object members))) :
    (members.map Prod.fst).Nodup := by
  obtain ⟨cs, -, hresult⟩ := h
  exact Json.nodup_names_of_readWithin hresult

/-- A file made of the text of a tree says this tree. -/
theorem says_compact {j : Json Wide} (h : j.Legible) (hroom : j.height ≤ stack.reading) :
    Says stack (Bytes.ofString j.compact) (.ok j.sorted) := by
  refine ⟨Json.write {} 0 j, ?_, Json.readWithin_unifyLines_write {} h hroom⟩
  have hoctets : Bytes.ofString j.compact = Text.Utf8.encode (Json.write {} 0 j) := by
    rw [Json.compact, Json.render, Bytes.ofString, String.toList_ofList]
    rfl
  rw [hoctets, Text.Utf8.decode_encode]

/-- The octets of a file cannot be read: they are no text, or a numeral is too long, or brackets are
nested too deep. -/
def Unreadable (stack : Stack) (bs : Bytes) : Prop :=
  ¬ Text.Utf8.WellFormed bs ∨ (∃ digits, Says stack bs (.error (.numeralTooLong digits))) ∨
    ∃ enclosed, Says stack bs (.error (.tooDeep enclosed))

/-- Loading a file breaks off at octets that cannot be read, or finds no object and changes nothing,
or takes over the members of an object. -/
theorem load_cases (stack : Stack) (hread : disk.read working s.path = .ok bs) :
    (Unreadable stack bs ∧ ∃ fault, s.load stack disk working = (s, [], .error fault)) ∨
    (¬ Unreadable stack bs ∧ (∀ members, ¬ Says stack bs (.ok (.object members))) ∧
      ∃ notices, s.load stack disk working = (s, notices, .ok false)) ∨
    (∃ members, Says stack bs (.ok (.object members)) ∧
      s.load stack disk working =
        match s.takeMembers stack members with
        | (t, notices, .ok ()) => ({ t with modified := false }, notices, .ok true)
        | (t, notices, .error fault) => (t, notices, .error fault)) := by
  have hreadable {result : Except Json.Fault (Json Wide)} (hsaid : Says stack bs result)
      (hnumeral : ∀ digits, result ≠ .error (.numeralTooLong digits))
      (hdeep : ∀ enclosed, result ≠ .error (.tooDeep enclosed)) : ¬ Unreadable stack bs := by
    rintro (hmalformed | ⟨digits, hlong⟩ | ⟨enclosed, htoo⟩)
    · exact hmalformed hsaid.wellFormed
    · exact hnumeral digits (hsaid.eq hlong)
    · exact hdeep enclosed (hsaid.eq htoo)
  simp only [load, Disk.isFile_of_read hread, hread, Bool.not_true, Bool.false_eq_true, if_false,
    Text.Charset.decodeUtf8]
  cases hdecode : Text.Utf8.decode bs with
  | error fault =>
      have hmalformed : ¬ Text.Utf8.WellFormed bs := by
        rw [← Text.Utf8.spells_iff_wellFormed, Text.Utf8.spells_iff_decode, hdecode]
        simp
      exact Or.inl ⟨Or.inl hmalformed, _, rfl⟩
  | ok cs =>
      have hsaid : Says stack bs (Json.readWithin stack.reading (Text.unifyLines cs)) :=
        ⟨cs, hdecode, rfl⟩
      simp only [Except.mapError, takeText]
      cases hresult : (Json.readWithin stack.reading (Text.unifyLines cs) :
          Except Json.Fault (Json Wide)) with
      | error fault =>
          rw [hresult] at hsaid
          cases fault with
          | numeralTooLong digits => exact Or.inl ⟨Or.inr (Or.inl ⟨digits, hsaid⟩), _, rfl⟩
          | tooDeep enclosed => exact Or.inl ⟨Or.inr (Or.inr ⟨enclosed, hsaid⟩), _, rfl⟩
          | syntactic cause line column index =>
              refine Or.inr (Or.inl ⟨hreadable hsaid (by simp) (by simp), fun members hobject => ?_,
                _, rfl⟩)
              cases hsaid.eq hobject
      | ok json =>
          rw [hresult] at hsaid
          cases json with
          | object members => exact Or.inr (Or.inr ⟨members, hsaid, rfl⟩)
          | _ =>
              refine Or.inr (Or.inl ⟨hreadable hsaid (by simp) (by simp), fun members hobject => ?_,
                _, rfl⟩)
              cases hsaid.eq hobject

theorem Says.readable (h : Says stack bs (.ok (.object members))) : ¬ Unreadable stack bs := by
  rintro (hmalformed | ⟨digits, hlong⟩ | ⟨enclosed, hdeep⟩)
  · exact hmalformed h.wellFormed
  · cases h.eq hlong
  · cases h.eq hdeep

theorem Says.members_eq {others : List (Wide × Json Wide)}
    (h : Says stack bs (.ok (.object members))) (h' : Says stack bs (.ok (.object others))) :
    others = members :=
  Json.object.inj (Except.ok.inj (h'.eq h))

/-- The members of an object that is loaded are taken over, all of them or those in front of one
that breaks this off. -/
theorem load_object_cases (hread : disk.read working s.path = .ok bs)
    (hsaid : Says stack bs (.ok (.object members))) :
    (∃ t notices, s.load stack disk working = (t, notices, .ok true) ∧
      TakesOver stack s members t notices ∧
      ∀ m ∈ members, ∀ fault, ¬ Breaks stack s.values.keys m fault) ∨
    ∃ before m after fault t notices, members = before ++ m :: after ∧
      s.load stack disk working = (t, notices, .error fault) ∧
      TakesOver stack s before t notices ∧ Breaks stack s.values.keys m fault := by
  rcases load_cases stack hread with ⟨hunreadable, -⟩ | ⟨-, hobject, -⟩ |
    ⟨others, hothers, hload⟩
  · exact absurd hunreadable hsaid.readable
  · exact absurd hsaid (hobject members)
  obtain rfl := hothers.members_eq hsaid
  rcases takesOver_takeMembers hsaid.nodup_names s stack with ⟨t, notices, htake, htakes, hwhole⟩ |
    ⟨before, m, after, fault, t, notices, hmembers, htake, htakes, hbreaks⟩
  · rw [htake] at hload
    obtain ⟨hpath, hkept, hheld, hrejected, hunnamed, hnotices⟩ := htakes
    exact Or.inl ⟨_, notices, hload, ⟨hpath, hkept, hheld, hrejected, hunnamed, hnotices⟩, hwhole⟩
  · rw [htake] at hload
    exact Or.inr ⟨before, m, after, fault, t, notices, hmembers, hload, htakes, hbreaks⟩

/-- What loading a file should come to: there is an answer; without an object nothing is changed,
and with one its members are taken over; and the settings can be used. -/
structure Settles (stack : Stack) (s : Settings) (bs : Bytes)
    (result : Settings × List Notice × Except LoadFault Bool) : Prop where
  answers : ∃ answer, result.2.2 = .ok answer
  refused : result.2.2 = .ok false → result.1 = s
  loaded : result.2.2 = .ok true →
    ∃ members, Says stack bs (.ok (.object members)) ∧
      TakesOver stack s members result.1 result.2.1
  usable : result.1.Usable

theorem not_settles_error {fault : LoadFault} :
    ¬ Settles stack s bs (t, notices, .error fault) := by
  intro h
  obtain ⟨answer, hanswer⟩ := h.answers
  cases hanswer

/-- A file that can be read and, if it holds an object, has members that can be told about and fit
values. -/
structure Sound (stack : Stack) (bs : Bytes) : Prop where
  readable : ¬ Unreadable stack bs
  whole : ∀ members, Says stack bs (.ok (.object members)) →
    ∀ m ∈ members, ∀ fault, ¬ Breaks stack standardValues.keys m fault
  fit : ∀ members, Says stack bs (.ok (.object members)) → FitMembers members

/-- Loading comes to what it should exactly for files that are sound. -/
theorem settles_iff_sound (stack : Stack) (hkeys : s.values.keys = standardValues.keys)
    (husable : s.Usable) (hread : disk.read working s.path = .ok bs) :
    Settles stack s bs (s.load stack disk working) ↔ Sound stack bs := by
  rcases load_cases stack hread with ⟨hunreadable, fault, hload⟩ |
    ⟨hreadable, hobject, notices, hload⟩ | ⟨members, hsaid, -⟩
  · rw [hload]
    exact iff_of_false not_settles_error fun h => h.readable hunreadable
  · -- nothing is taken over, so what the settings were good for they still are
    rw [hload]
    refine iff_of_true ⟨⟨false, rfl⟩, fun _ => rfl, fun h => (by cases h), husable⟩ ?_
    exact ⟨hreadable, fun members hmembers => absurd hmembers (hobject members),
      fun members hmembers => absurd hmembers (hobject members)⟩
  rcases load_object_cases hread hsaid with ⟨t, notices, hload, htakes, hwhole⟩ |
    ⟨before, m, after, fault, t, notices, hmembers, hload, htakes, hbreaks⟩
  · have husable' := htakes.usable_iff hkeys husable
    rw [hload]
    refine ⟨fun h => ⟨hsaid.readable, fun others hothers => ?_, fun others hothers => ?_⟩,
      fun h => ⟨⟨true, rfl⟩, (by cases ·), fun _ => ⟨members, hsaid, htakes⟩,
        husable'.mpr (h.fit members hsaid)⟩⟩
    · rw [hsaid.members_eq hothers, ← hkeys]
      exact hwhole
    · rw [hsaid.members_eq hothers]
      exact husable'.mp h.usable
  · have hm : m ∈ members := by
      rw [hmembers]
      simp
    rw [hload]
    exact iff_of_false not_settles_error fun h => h.whole members hsaid m hm fault (hkeys ▸ hbreaks)

/-- What is left where loading breaks off: nothing is changed if the file cannot be read, and else
the members in front of the one that breaks it off have been taken over. -/
def LeavesOff (stack : Stack) (s : Settings) (bs : Bytes) (t : Settings) (notices : List Notice)
    (fault : LoadFault) : Prop :=
  (Unreadable stack bs ∧ t = s ∧ notices = []) ∨
    ∃ before m after, Says stack bs (.ok (.object (before ++ m :: after))) ∧
      TakesOver stack s before t notices ∧ Breaks stack s.values.keys m fault

/-- Loading an existing file, whatever its octets, into settings that can be used. If the answer is
that no object was found nothing is changed; if one was found no name comes or goes, and each member
of a known name is taken over or, if it is rejected, leaves its setting as it was with a notice.
There is an answer and the settings can be used afterwards exactly if the file is sound. -/
theorem load_settles_iff (stack : Stack) (hkeys : s.values.keys = standardValues.keys)
    (husable : s.Usable) (hread : disk.read working s.path = .ok bs) :
    ((s.load stack disk working).2.2 = .ok false → (s.load stack disk working).1 = s) ∧
    ((s.load stack disk working).2.2 = .ok true →
      ∃ members, Says stack bs (.ok (.object members)) ∧
        TakesOver stack s members (s.load stack disk working).1
          (s.load stack disk working).2.1) ∧
    (∀ fault, (s.load stack disk working).2.2 = .error fault →
      LeavesOff stack s bs (s.load stack disk working).1 (s.load stack disk working).2.1 fault) ∧
    (Settles stack s bs (s.load stack disk working) ↔ Sound stack bs) := by
  have hsettles := settles_iff_sound stack hkeys husable hread
  rcases load_cases stack hread with ⟨hunreadable, fault, hload⟩ |
    ⟨-, -, notices, hload⟩ | ⟨members, hsaid, -⟩
  · rw [hload] at hsettles ⊢
    exact ⟨fun _ => rfl, fun h => (by cases h), fun _ _ => Or.inl ⟨hunreadable, rfl, rfl⟩, hsettles⟩
  · rw [hload] at hsettles ⊢
    exact ⟨fun _ => rfl, fun h => (by cases h), fun _ h => (by cases h), hsettles⟩
  rcases load_object_cases hread hsaid with ⟨t, notices, hload, htakes, -⟩ |
    ⟨before, m, after, fault, t, notices, hmembers, hload, htakes, hbreaks⟩
  · rw [hload] at hsettles ⊢
    exact ⟨fun h => (by cases h), fun _ => ⟨members, hsaid, htakes⟩, fun _ h => (by cases h),
      hsettles⟩
  · rw [hload] at hsettles ⊢
    refine ⟨fun h => (by cases h), fun h => (by cases h), fun other h => ?_, hsettles⟩
    obtain rfl := Except.error.inj h
    exact Or.inr ⟨before, m, after, hmembers ▸ hsaid, htakes, hbreaks⟩

theorem usable_standard (environment : Environment) (path : Option String) :
    (standard environment path).Usable := by
  refine (usable_iff _).mpr ⟨⟨_, rfl⟩, fun name => ⟨?_, fun hname => ?_⟩⟩
  · rintro rfl
    exact ⟨[.text (.ofString "spr"), .text (.ofString "act")], rfl, by simp⟩
  · simp only [List.mem_cons, List.not_mem_nil, or_false] at hname
    rcases hname with rfl | rfl | rfl <;> exact ⟨_, rfl⟩

/-- A disk with nothing but a settings file. -/
def settingsDisk (bs : Bytes) : Disk :=
  Disk.empty.putFile ["config.json"] bs

/-- A settings file with two workers. -/
def twoWorkers : Bytes :=
  Bytes.ofString (Json.object [("export_workers", .integer 2)] : Json).compact

theorem load_settles_iff_of_twoWorkers :
    (standard {} (some "config.json")).values.keys = standardValues.keys ∧
    (standard {} (some "config.json")).Usable ∧
    (settingsDisk twoWorkers).read [] "config.json" = .ok twoWorkers ∧
    (((standard {} (some "config.json")).load {} (settingsDisk twoWorkers) []).2.2 = .ok false →
      ((standard {} (some "config.json")).load {} (settingsDisk twoWorkers) []).1 =
        standard {} (some "config.json")) ∧
    (((standard {} (some "config.json")).load {} (settingsDisk twoWorkers) []).2.2 = .ok true →
      ∃ members, Says {} twoWorkers (.ok (.object members)) ∧
        TakesOver {} (standard {} (some "config.json")) members
          ((standard {} (some "config.json")).load {} (settingsDisk twoWorkers) []).1
          ((standard {} (some "config.json")).load {} (settingsDisk twoWorkers) []).2.1) ∧
    (∀ fault,
      ((standard {} (some "config.json")).load {} (settingsDisk twoWorkers) []).2.2 =
        .error fault →
      LeavesOff {} (standard {} (some "config.json")) twoWorkers
        ((standard {} (some "config.json")).load {} (settingsDisk twoWorkers) []).1
        ((standard {} (some "config.json")).load {} (settingsDisk twoWorkers) []).2.1 fault) ∧
    (Settles {} (standard {} (some "config.json")) twoWorkers
      ((standard {} (some "config.json")).load {} (settingsDisk twoWorkers) []) ↔
        Sound {} twoWorkers) := by
  have husable := usable_standard {} (some "config.json")
  have hread : (settingsDisk twoWorkers).read [] "config.json" = .ok twoWorkers := rfl
  exact ⟨rfl, husable, hread, load_settles_iff {} rfl husable hread⟩

/-! ### Files that are not sound -/

/-- A settings file with nothing under a name. -/
def nullUnder (name : Wide) : Bytes :=
  Bytes.ofString (Json.object [(name, .null)]).compact

theorem says_nullUnder (stack : Stack) {name : Wide} (h : Text.Unpaired name.points) :
    Says stack (nullUnder name) (.ok (.object [(name, .null)])) := by
  have hlegible : (Json.object [(name, .null)]).Legible := by
    refine .object (by simp) (fun m hm => ?_) fun m hm => ?_
    · rw [List.mem_singleton.mp hm]
      exact h
    · rw [List.mem_singleton.mp hm]
      exact .null
  have hsorted : (Json.object [(name, .null)]).sorted = .object [(name, .null)] := by
    rw [Json.sorted_object, Json.sortMembers, List.mergeSort_singleton]
    rfl
  have hroom : (Json.object [(name, .null)]).height ≤ stack.reading :=
    Nat.le_of_succ_le stack.two_le_reading
  exact hsorted ▸ says_compact hlegible hroom

/-- A settings file with brackets nested one level deeper than there is room for. -/
def deepBrackets (stack : Stack) : Bytes :=
  Text.Utf8.encode (List.replicate (stack.reading + 1) '[')

theorem says_deepBrackets (stack : Stack) :
    Says stack (deepBrackets stack) (.error (.tooDeep .array)) := by
  have hlines : '\r' ∉ List.replicate (stack.reading + 1) '[' := by
    intro hmem
    exact absurd (List.eq_of_mem_replicate hmem) (by decide)
  refine ⟨_, Text.Utf8.decode_encode _, ?_⟩
  rw [Text.unifyLines_eq_self hlines, Json.readWithin_replicate (Nat.lt_succ_self _)]

theorem not_wellFormed_strayOctet : ¬ Text.Utf8.WellFormed [0xFF] := by
  rw [← Text.Utf8.spells_iff_wellFormed, Text.Utf8.spells_iff_decode]
  rintro ⟨cs, hcs⟩
  cases hcs

theorem not_fit_null : ¬ Fit "export_workers" .null := by
  intro h
  obtain ⟨n, hn⟩ := h.integer (by simp)
  cases hn

/-- A settings file of these octets is read, but loading it does not settle. -/
def Unsettled (stack : Stack) (bs : Bytes) : Prop :=
  (settingsDisk bs).read [] "config.json" = .ok bs ∧
    ¬ Settles stack (standard {} (some "config.json")) bs
      ((standard {} (some "config.json")).load stack (settingsDisk bs) [])

theorem unsettled_of_not_sound {bs : Bytes} (h : ¬ Sound stack bs) : Unsettled stack bs := by
  have hread : (settingsDisk bs).read [] "config.json" = .ok bs := rfl
  have husable := usable_standard {} (some "config.json")
  exact ⟨hread, fun hsettled => h ((settles_iff_sound stack rfl husable hread).mp hsettled)⟩

/-- A single octet that is no text breaks the loading off, and so do brackets that are nested too
deep and a name that is half of a surrogate pair; and settings that have taken over a missing number
of workers without a notice cannot be used. -/
theorem not_settles_of_strayOctet :
    Unsettled {} [0xFF] ∧ Unsettled {} (deepBrackets {}) ∧
      Unsettled {} (nullUnder ⟨[.ofUnit 0xD800]⟩) ∧
      Unsettled {} (nullUnder (.ofString "export_workers")) := by
  have hhalf : Says {} (nullUnder ⟨[.ofUnit 0xD800]⟩) _ := says_nullUnder {} (List.IsChain.singleton _)
  have hworkers := says_nullUnder {} (Wide.unpaired_ofString "export_workers")
  refine ⟨unsettled_of_not_sound fun h => ?_, unsettled_of_not_sound fun h => ?_,
    unsettled_of_not_sound fun h => ?_, unsettled_of_not_sound fun h => ?_⟩
  · exact h.readable (Or.inl not_wellFormed_strayOctet)
  · exact h.readable (Or.inr (Or.inr ⟨_, says_deepBrackets {}⟩))
  · exact h.whole _ hhalf _ List.mem_cons_self _ (.printed rfl)
  · exact not_fit_null (h.fit _ hworkers "export_workers" .null List.mem_cons_self)

end Settings

end ArchiveExport
