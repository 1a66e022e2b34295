import ArchiveExport.Proofs.Disk.Access
import ArchiveExport.Proofs.Json.Reading
import ArchiveExport.Proofs.Json.Stream
import ArchiveExport.Proofs.Settings.Members
import ArchiveExport.Proofs.Text.Utf8

/-!
# Saving settings and loading them again

A setter puts a value into the form in which a settings file has it, or rejects it. So whatever has
been set and whatever has been rejected, the settings have the standard names, and each would take
its own value from a file. They are saved as a text from which fresh settings take all of them over,
unless the output path or a suffix is one that cannot be written or is not read back as it was.
-/

namespace ArchiveExport

open Text (Wide Spelled)

/-- The folder in front of a text is there or can be made, and a file can then be written. -/
def Disk.Accepts (d : Disk) (working : Path) (text : String) : Prop :=
  let folder := Path.folder text
  let made := if folder = "" then (d, .ok ()) else d.makeFolders working folder
  made.2 = .ok () ∧ ∃ data e, made.1.write working text data = .ok e

/-! ### Values in order -/

namespace Json

variable {τ : Type} [Spelled τ] [LE τ] {j : Json τ}

/-- Any value in which no integer has more digits than a numeral may have and no text has a pair in
two halves, the members of an object being listed in the order of their names. -/
inductive Ordered : Json τ → Prop
  | null : Ordered .null
  | bool (b : Bool) : Ordered (.bool b)
  | integer {n : Int} (h : (Nat.toDigits 10 n.natAbs).length ≤ maxDigits) : Ordered (.integer n)
  | real {x : Binary64} (h : x.Canonical) : Ordered (.real x)
  | text {s : τ} (h : Text.Unpaired (Spelled.points s)) : Ordered (.text s)
  | array {xs : List (Json τ)} (h : ∀ x ∈ xs, Ordered x) : Ordered (.array xs)
  | object {ms : List (τ × Json τ)} (hnames : (ms.map Prod.fst).Nodup)
      (hunpaired : ∀ m ∈ ms, Text.Unpaired (Spelled.points m.1))
      (hsorted : ms.Pairwise fun a b => a.1 ≤ b.1) (h : ∀ m ∈ ms, Ordered m.2) :
      Ordered (.object ms)

theorem Ordered.legible (h : Ordered j) : Legible j := by
  induction h with
  | null => exact .null
  | bool b => exact .bool b
  | integer h => exact .integer h
  | real h => exact .real h
  | text h => exact .text h
  | array h ih => exact .array ih
  | object hnames hunpaired hsorted h ih => exact .object hnames hunpaired ih

/-- There is nothing left to sort. -/
theorem Ordered.sorted_eq [DecidableLE τ] (h : Ordered j) : j.sorted = j := by
  induction h with
  | array h ih =>
      rw [sorted_array]
      exact congrArg Json.array ((List.map_congr_left ih).trans (List.map_id _))
  | @object ms hnames hunpaired hsorted h ih =>
      have hmembers : sortMembers ms = ms :=
        List.mergeSort_of_pairwise (hsorted.imp fun hle => decide_eq_true hle)
      have hvalues : (ms.map fun m => (m.1, m.2.sorted)) = ms :=
        (List.map_congr_left fun m hm => by rw [ih m hm]; rfl).trans (List.map_id ms)
      rw [sorted_object, hmembers, hvalues]
  | _ => rfl

end Json

namespace Settings

variable {s t : Settings} {stack : Stack} {name : String} {value : Json Wide}
  {calls : List (Property × Json Wide)} {disk : Disk} {working : Path}

/-! ### Values that are kept -/

/-- A value that is written and read back as it is, as a member of an object. -/
structure Kept (stack : Stack) (value : Json Wide) : Prop where
  ordered : value.Ordered
  writable : value.height < stack.writing
  readable : value.height < stack.reading

/-- There is room for a value with no more than one level of brackets. -/
theorem kept_of_height_le (hordered : value.Ordered) (hheight : value.height ≤ 1) :
    Kept stack value :=
  ⟨hordered, Nat.lt_of_le_of_lt hheight stack.two_le_writing,
    Nat.lt_of_le_of_lt hheight stack.two_le_reading⟩

theorem kept_text {text : Wide} (h : Text.Unpaired text.points) : Kept stack (.text text) :=
  kept_of_height_le (.text h) (Nat.zero_le 1)

theorem kept_bool (b : Bool) : Kept stack (.bool b) :=
  kept_of_height_le (.bool b) (Nat.zero_le 1)

theorem kept_integer {n : Int} (h : n.natAbs < 100) : Kept stack (.integer n) := by
  have hlength : (Nat.toDigits 10 n.natAbs).length ≤ 2 := by
    rw [Nat.length_toDigits_le_iff (by decide) (by decide)]
    exact h
  have hmax : 2 ≤ Json.maxDigits := by decide
  exact kept_of_height_le (.integer (hlength.trans hmax)) (Nat.zero_le 1)

theorem kept_texts {texts : List Wide} (h : ∀ text ∈ texts, Text.Unpaired text.points) :
    Kept stack (.arrayOf .text texts) := by
  refine kept_of_height_le (.array fun item hitem => ?_) ?_
  · obtain ⟨text, htext, rfl⟩ := List.mem_map.mp hitem
    exact .text (h text htext)
  · refine Json.height_array_le_iff.mpr ⟨0, rfl, fun item hitem => ?_⟩
    obtain ⟨text, -, rfl⟩ := List.mem_map.mp hitem
    exact Nat.le_refl 0

theorem kept_listed (names : List String) : Kept stack (listed names) := by
  have htexts : listed names = .arrayOf .text (names.map Wide.ofString) := by
    rw [listed, Json.arrayOf, Json.arrayOf, List.map_map]
    rfl
  rw [htexts]
  refine kept_texts fun text htext => ?_
  obtain ⟨name, -, rfl⟩ := List.mem_map.mp htext
  exact Wide.unpaired_ofString name

/-! ### Setting properties -/

/-- The settings after an attempt to set a property: as they were where the value is rejected. -/
def attempt (stack : Stack) (s : Settings) (property : Property) (value : Json Wide) : Settings :=
  match s.set stack property value with
  | .ok t => t
  | .error _ => s

/-- The settings after attempts to set properties, one after the other. -/
def attempts (stack : Stack) (s : Settings) (calls : List (Property × Json Wide)) : Settings :=
  calls.foldl (fun s call => s.attempt stack call.1 call.2) s

/-- What can be held under a name: the output path is put as it is given, the suffixes are texts,
and any other value is one that is kept. -/
def Formed (stack : Stack) (name : String) (value : Json Wide) : Prop :=
  name = "output_path" ∨
  (name = "grouped_suffixes" ∧ ∃ suffixes, value = .arrayOf .text suffixes) ∨
  Kept stack value

/-- The names are the standard ones, and each setting would take its own value from a file. -/
structure Settled (stack : Stack) (s : Settings) : Prop where
  keys : s.values.keys = standardValues.keys
  formed : ∀ name value, s.value? name = some value → Formed stack name value
  taken : ∀ name value, s.value? name = some value → taken stack name value = .ok value

theorem areModes_json : AreModes ["json"] where
  nonempty := by simp
  known := by decide
  form := by decide

theorem settled_standard (stack : Stack) (environment : Environment) (path : Option String) :
    Settled stack (standard environment path) := by
  have hformed : ∀ e ∈ standardValues.entries, Formed stack e.1 e.2 := by
    have htext (name text : String) : Formed stack name (.text (.ofString text)) :=
      Or.inr (Or.inr (kept_text (Wide.unpaired_ofString text)))
    have hnumber (name : String) {n : Int} (h : n.natAbs < 100) : Formed stack name (.integer n) :=
      Or.inr (Or.inr (kept_integer h))
    have hflag (name : String) (b : Bool) : Formed stack name (.bool b) :=
      Or.inr (Or.inr (kept_bool b))
    have hnames (name : String) (names : List String) : Formed stack name (listed names) :=
      Or.inr (Or.inr (kept_listed names))
    simp only [standardValues, List.forall_mem_cons]
    exact ⟨htext _ _, hnames _ ["json"], hnames _ ["spr", "act"], htext _ _, htext _ _, htext _ _,
      hnumber _ (by decide), htext _ _, hnumber _ (by decide), hnumber _ (by decide), hflag _ _,
      htext _ _, hflag _ _, htext _ _, hflag _ _, List.forall_mem_nil _⟩
  have htaken : ∀ e ∈ standardValues.entries, Settings.taken stack e.1 e.2 = .ok e.2 := by
    simp only [standardValues, List.forall_mem_cons]
    exact ⟨rfl, areModes_json.taken_listed stack, rfl, rfl, rfl, rfl, rfl, rfl, rfl, rfl, rfl, rfl,
      rfl, rfl, rfl, List.forall_mem_nil _⟩
  exact ⟨rfl, fun name value h => hformed _ (OrderedMap.mem_entries_of_find? h),
    fun name value h => htaken _ (OrderedMap.mem_entries_of_find? h)⟩

theorem Settled.put (h : Settled stack s) (hname : name ∈ standardValues.keys)
    (hformed : Formed stack name value) (htaken : Settings.taken stack name value = .ok value) :
    Settled stack (s.put name value) := by
  have hvalue (other : String) : (s.put name value).value? other =
      if other = name then some value else s.value? other :=
    OrderedMap.find?_insert s.values name value other
  refine ⟨?_, fun other found hfound => ?_, fun other found hfound => ?_⟩
  · exact (OrderedMap.keys_insert_of_mem (h.keys ▸ hname) value).trans h.keys
  · rw [hvalue] at hfound
    split at hfound
    next hsame =>
      obtain rfl := Option.some.inj hfound
      exact hsame ▸ hformed
    next => exact h.formed other found hfound
  · rw [hvalue] at hfound
    split at hfound
    next hsame =>
      obtain rfl := Option.some.inj hfound
      exact hsame ▸ htaken
    next => exact h.taken other found hfound

/-- A value is rejected, or one is put under the name of the property, and its setting would take
that one from a file as it is. -/
theorem set_cases (s : Settings) (stack : Stack) (property : Property) (value : Json Wide) :
    (∃ misuse, s.set stack property value = .error misuse) ∨
      ∃ held, s.set stack property value = .ok (s.put property.name held) ∧
        property.name ∈ standardValues.keys ∧ Formed stack property.name held ∧
          taken stack property.name held = .ok held := by
  cases property with
  | outputPath => exact Or.inr ⟨value, rfl, by decide, Or.inl rfl, rfl⟩
  | defaultModes =>
      rw [set, setDefaultModes_eq]
      cases hmodes : modesOf stack value with
      | error misuse => exact Or.inl ⟨misuse, rfl⟩
      | ok names =>
          have htaken := (modesOf_eq_ok hmodes).taken_listed stack
          exact Or.inr ⟨_, rfl, by decide, Or.inr (Or.inr (kept_listed names)), htaken⟩
  | groupedSuffixes =>
      rw [set, setGroupedSuffixes]
      cases Setting.parts value with
      | error misuse => exact Or.inl ⟨misuse, rfl⟩
      | ok items =>
          simp only [bind, Except.bind]
          split
          · exact Or.inl ⟨_, rfl⟩
          · exact Or.inr ⟨_, rfl, by decide, Or.inr (Or.inl ⟨rfl, _, rfl⟩), rfl⟩
  | workers =>
      rw [set, setWorkers]
      cases Setting.integer value with
      | error misuse => exact Or.inl ⟨misuse, rfl⟩
      | ok n =>
          have hlow : (max 1 (min maxWorkers n)).natAbs < 100 := by
            rw [maxWorkers]
            omega
          exact Or.inr ⟨_, rfl, by decide, Or.inr (Or.inr (kept_integer hlow)), rfl⟩
  | ledgerEnabled => exact Or.inr ⟨_, rfl, by decide, Or.inr (Or.inr (kept_bool _)), rfl⟩
  | debugMode => exact Or.inr ⟨_, rfl, by decide, Or.inr (Or.inr (kept_bool _)), rfl⟩
  | _ => exact Or.inl ⟨_, rfl⟩

/-- An attempt changes nothing where the value is rejected, and else no other setting than its
own. -/
theorem attempt_cases (stack : Stack) (s : Settings) (property : Property) (value : Json Wide) :
    (∃ misuse, s.set stack property value = .error misuse ∧
      s.attempt stack property value = s) ∨
      ∃ held, s.set stack property value = .ok (s.put property.name held) ∧
        s.attempt stack property value = s.put property.name held := by
  rcases set_cases s stack property value with ⟨misuse, hset⟩ | ⟨held, hset, -⟩
  · exact Or.inl ⟨misuse, hset, by rw [attempt, hset]⟩
  · exact Or.inr ⟨held, hset, by rw [attempt, hset]⟩

theorem Settled.attempt (h : Settled stack s) (property : Property) (value : Json Wide) :
    Settled stack (s.attempt stack property value) ∧
      (s.attempt stack property value).path = s.path := by
  rcases set_cases s stack property value with ⟨misuse, hset⟩ |
    ⟨held, hset, hname, hformed, htaken⟩
  · rw [Settings.attempt, hset]
    exact ⟨h, rfl⟩
  · rw [Settings.attempt, hset]
    exact ⟨h.put hname hformed htaken, rfl⟩

theorem Settled.attempts (h : Settled stack s) (calls : List (Property × Json Wide)) :
    Settled stack (s.attempts stack calls) ∧ (s.attempts stack calls).path = s.path := by
  induction calls generalizing s with
  | nil => exact ⟨h, rfl⟩
  | cons call calls ih =>
      obtain ⟨hsettled, hpath⟩ := h.attempt call.1 call.2
      obtain ⟨hlast, hlastPath⟩ := ih hsettled
      exact ⟨hlast, hlastPath.trans hpath⟩

/-! ### The text of settings -/

/-- What the setters leave to the values that are set: the output path can be written and is read
back as it is, and no suffix has a pair in two halves. -/
structure Restorable (stack : Stack) (s : Settings) : Prop where
  outputPath : Kept stack (s.value "output_path")
  suffixes : ∀ suffix, .text suffix ∈ (s.value "grouped_suffixes").items →
    Text.Unpaired suffix.points

theorem Settled.kept (h : Settled stack s) (hrestorable : s.Restorable stack)
    (hvalue : s.value? name = some value) : Kept stack value := by
  have hheld : s.value name = value := by
    rw [Settings.value, hvalue]
    rfl
  rcases h.formed name value hvalue with rfl | ⟨rfl, suffixes, rfl⟩ | hkept
  · exact hheld ▸ hrestorable.outputPath
  · refine kept_texts fun suffix hsuffix => hrestorable.suffixes suffix ?_
    rw [hheld]
    exact List.mem_map_of_mem hsuffix
  · exact hkept

theorem nodup_keys_standardValues : standardValues.keys.Nodup := by
  decide

theorem Settled.nodup_keys (h : Settled stack s) : s.values.keys.Nodup :=
  h.keys ▸ nodup_keys_standardValues

theorem Settled.exists_of_mem (h : Settled stack s) {m : Wide × Json Wide} (hm : m ∈ s.members) :
    ∃ name value, m = (.ofString name, value) ∧ name ∈ s.values.keys ∧
      s.value? name = some value := by
  obtain ⟨e, he, rfl⟩ := List.mem_map.mp hm
  exact ⟨e.1, e.2, rfl, List.mem_map_of_mem he, OrderedMap.find?_of_mem_entries h.nodup_keys he⟩

theorem Settled.nodup_names (h : Settled stack s) : (s.members.map Prod.fst).Nodup := by
  have hnames : s.members.map Prod.fst = s.values.keys.map Wide.ofString := by
    rw [members, OrderedMap.keys, List.map_map, List.map_map]
    rfl
  exact hnames ▸ h.nodup_keys.map Wide.ofString_injective

section Text

variable (h : Settled stack s) (hrestorable : s.Restorable stack)

include h hrestorable

theorem Settled.kept_of_mem {m : Wide × Json Wide} (hm : m ∈ s.members) : Kept stack m.2 := by
  obtain ⟨name, value, rfl, -, hvalue⟩ := h.exists_of_mem hm
  exact h.kept hrestorable hvalue

theorem Settled.legible_document : s.document.Legible := by
  refine .object h.nodup_names (fun m hm => ?_) fun m hm => ?_
  · obtain ⟨name, -, rfl, -⟩ := h.exists_of_mem hm
    exact Wide.unpaired_ofString name
  · exact (h.kept_of_mem hrestorable hm).ordered.legible

theorem Settled.sorted_document :
    s.document.sorted = .object (Json.sortMembers s.members) := by
  have hsorted : ((Json.sortMembers s.members).map fun m => (m.1, m.2.sorted)) =
      Json.sortMembers s.members := by
    refine (List.map_congr_left fun m hm => ?_).trans (List.map_id _)
    rw [(h.kept_of_mem hrestorable (Json.mem_sortMembers.mp hm)).ordered.sorted_eq]
    rfl
  rw [document, Json.sorted_object, hsorted]

/-- Such settings are written to their end. -/
theorem Settled.written_eq :
    s.written stack = ⟨s.document.write ⟨some 4, true⟩ 0, none⟩ := by
  have hroom : s.document.height ≤ stack.writing := by
    refine Json.height_object_le_iff.mpr ⟨stack.writing - 1, ?_, fun m hm => ?_⟩
    · have htwo := stack.two_le_writing
      omega
    · have hheight := (h.kept_of_mem hrestorable hm).writable
      omega
  exact Json.stream_eq _ (h.legible_document hrestorable) hroom 0 []

/-- The members of the text are the settings in the order of their names. -/
theorem Settled.readWithin_text :
    Json.readWithin stack.reading (Text.unifyLines (s.written stack).text) =
      .ok (.object (Json.sortMembers s.members)) := by
  have hroom : s.document.height ≤ stack.reading := by
    refine Json.height_object_le_iff.mpr ⟨stack.reading - 1, ?_, fun m hm => ?_⟩
    · have htwo := stack.two_le_reading
      omega
    · have hheight := (h.kept_of_mem hrestorable hm).readable
      omega
  rw [h.written_eq hrestorable, ← h.sorted_document hrestorable]
  exact Json.readWithin_unifyLines_write _ (h.legible_document hrestorable) hroom

end Text

/-- Each setting takes its own value. -/
theorem Settled.taken_of_mem (h : Settled stack s) {m : Wide × Json Wide}
    (hm : m ∈ Json.sortMembers s.members) :
    ∃ name value, m = (.ofString name, value) ∧ name ∈ standardValues.keys ∧
      s.value? name = some value ∧ Settings.taken stack name value = .ok value := by
  obtain ⟨name, value, hname, hknown, hvalue⟩ := h.exists_of_mem (Json.mem_sortMembers.mp hm)
  exact ⟨name, value, hname, h.keys ▸ hknown, hvalue, h.taken name value hvalue⟩

/-- Settings with the same names take over the members of the text as they are. -/
theorem Settled.takeMembers_eq {u : Settings} (h : Settled stack s)
    (hu : u.values.keys = standardValues.keys) :
    ∃ t, u.takeMembers stack (Json.sortMembers s.members) = (t, [], .ok ()) ∧
      t.values = s.values ∧ t.path = u.path := by
  have hnames := Json.nodup_names_sortMembers h.nodup_names
  rcases takesOver_takeMembers hnames u stack with ⟨t, notices, htake, htakes, -⟩ |
    ⟨before, m, after, fault, t, notices, hmembers, -, -, hbreaks⟩
  · have hsilent : notices = [] := by
      rw [htakes.notices, List.flatMap_eq_nil_iff]
      intro m hm
      obtain ⟨name, value, rfl, hname, -, htaken⟩ := h.taken_of_mem hm
      simp [noticesOf, hu, hname, htaken]
    refine ⟨t, hsilent ▸ htake, ?_, htakes.path⟩
    -- the text lists the names in another order, so the settings are compared name by name
    have hkeys : t.values.keys = s.values.keys := htakes.keys.trans (hu.trans h.keys.symm)
    refine OrderedMap.eq_of_find?_eq (hkeys ▸ h.nodup_keys) hkeys fun name hname => ?_
    rw [hkeys] at hname
    obtain ⟨value, hvalue⟩ := OrderedMap.mem_keys_iff_exists_find?.mp hname
    have hm : (.ofString name, value) ∈ Json.sortMembers s.members :=
      Json.mem_sortMembers.mpr (List.mem_map_of_mem (OrderedMap.mem_entries_of_find? hvalue))
    rw [hvalue]
    exact htakes.held name value hm (hu ▸ h.keys ▸ hname) value (h.taken name value hvalue)
  · have hm : m ∈ Json.sortMembers s.members := by
      rw [hmembers]
      simp
    obtain ⟨name, value, rfl, -, -, htaken⟩ := h.taken_of_mem hm
    rw [breaks_ofString_iff, htaken] at hbreaks
    cases hbreaks.2.1

/-! ### Saving and loading -/

/-- The settings are saved, and fresh settings then load exactly these settings, without a notice.
Neither count as modified then. -/
def IsRestored (stack : Stack) (fresh s : Settings) (disk : Disk) (working : Path) : Prop :=
  ∃ left, s.save stack disk working = ({ s with modified := false }, left, [], .ok true) ∧
    fresh.load stack left working = ({ s with modified := false }, [], .ok true)

/-- Where files can be kept, what can be written of settings is written, and is then read there. -/
theorem exists_write_eq (stack : Stack) (s : Settings) (haccepts : disk.Accepts working s.path) :
    ∃ left, s.write stack disk working = (left, .ok ()) ∧
      left.read working s.path = .ok (Text.Utf8.encode (s.written stack).text) := by
  obtain ⟨hmade, data, e, hwrite⟩ := haccepts
  obtain ⟨left, hleft⟩ := Disk.exists_write_eq_ok hwrite (Text.Utf8.encode (s.written stack).text)
  refine ⟨left, ?_, Disk.read_of_write hleft⟩
  unfold write
  simp only [hmade, hleft]

/-- Fresh settings load what was saved. -/
theorem Settled.isRestored {fresh : Settings} (h : Settled stack s)
    (hrestorable : s.Restorable stack) (hfresh : fresh.values.keys = standardValues.keys)
    (hpath : fresh.path = s.path) (haccepts : disk.Accepts working s.path) :
    IsRestored stack fresh s disk working := by
  obtain ⟨left, hwrite, hread⟩ := exists_write_eq stack s haccepts
  have hfault : (s.written stack).fault = none := by rw [h.written_eq hrestorable]
  obtain ⟨t, htake, hvalues, htpath⟩ := h.takeMembers_eq hfresh
  have hdecode : Text.Charset.decodeUtf8 (Text.Utf8.encode (s.written stack).text) =
      .ok (s.written stack).text := by
    rw [Text.Charset.decodeUtf8]
    exact congrArg (Except.mapError _) (Text.Utf8.decode_encode _)
  have htext : fresh.takeText stack (s.written stack).text =
      ({ s with modified := false }, [], .ok true) := by
    rw [takeText, h.readWithin_text hrestorable]
    simp only [htake, hvalues, htpath, hpath]
  refine ⟨left, ?_, ?_⟩
  · rw [save, hwrite]
    simp only [hfault]
  · rw [load, hpath, Disk.isFile_of_read hread, hread]
    simp only [Bool.not_true, Bool.false_eq_true, if_false, hdecode, htext]

/-- Any attempts to set properties of standard settings to any values. An attempt whose value is
rejected changes nothing, and any other puts a value under the name of its property. Where files can
be kept, and if the output path and the suffixes are in the end such as can be written and are read
back as they are, the settings are saved, and fresh settings of the same path load exactly these
settings, without a notice. Neither count as modified then. -/
theorem load_save_attempts (stack : Stack) (environment : Environment) (path : Option String)
    (calls : List (Property × Json Wide))
    (hrestorable : ((standard environment path).attempts stack calls).Restorable stack)
    (haccepts : disk.Accepts working (standard environment path).path) :
    (∀ (before : Settings) property value,
      (∃ misuse, before.set stack property value = .error misuse ∧
        before.attempt stack property value = before) ∨
      ∃ held, before.set stack property value = .ok (before.put property.name held) ∧
        before.attempt stack property value = before.put property.name held) ∧
    IsRestored stack (standard environment path) ((standard environment path).attempts stack calls)
      disk working := by
  obtain ⟨hsettled, hpath⟩ := (settled_standard stack environment path).attempts calls
  exact ⟨attempt_cases stack, hsettled.isRestored hrestorable rfl hpath.symm (hpath ▸ haccepts)⟩

/-- Half of a surrogate pair, a line end, a quote and a character outside of ASCII. -/
def oddPath : Wide := ⟨[.ofUnit 0xD800, .char '\r', .char '\n', .char '"', .char '😀']⟩

theorem unpaired_oddPath : Text.Unpaired oddPath.points := by
  simp [oddPath, Text.Unpaired, Text.Point.isHigh, Text.Point.isLow]

/-- A strange output path, a mode that there is not, one that is spelled in capitals, suffixes of
which one is no text, and more workers than are allowed. -/
def fiveCalls : List (Property × Json Wide) :=
  [(.outputPath, .text oddPath),
    (.defaultModes, .array [.text (.ofString "png")]),
    (.defaultModes, .array [.text (.ofString " RAW ")]),
    (.groupedSuffixes, .array [.text (.ofString ".SPR"), .integer 7]),
    (.workers, .text (.ofString "99"))]

theorem load_save_attempts_of_fiveCalls :
    ((standard {} (some "config.json")).attempts {} fiveCalls).Restorable {} ∧
    Disk.empty.Accepts [] (standard {} (some "config.json")).path ∧
    (∀ (before : Settings) property value,
      (∃ misuse, before.set {} property value = .error misuse ∧
        before.attempt {} property value = before) ∨
      ∃ held, before.set {} property value = .ok (before.put property.name held) ∧
        before.attempt {} property value = before.put property.name held) ∧
    IsRestored {} (standard {} (some "config.json"))
      ((standard {} (some "config.json")).attempts {} fiveCalls) Disk.empty [] := by
  have houtput : ((standard {} (some "config.json")).attempts {} fiveCalls).value "output_path" =
      .text oddPath := rfl
  have hsuffixes :
      ((standard {} (some "config.json")).attempts {} fiveCalls).value "grouped_suffixes" =
        listed ["spr", "7"] := rfl
  have hrestorable : ((standard {} (some "config.json")).attempts {} fiveCalls).Restorable {} := by
    refine ⟨?_, fun suffix hsuffix => ?_⟩
    · rw [houtput]
      exact kept_text unpaired_oddPath
    · rw [hsuffixes] at hsuffix
      obtain ⟨name, -, hname⟩ := List.mem_map.mp hsuffix
      exact Json.text.inj hname ▸ Wide.unpaired_ofString name
  have haccepts : Disk.empty.Accepts [] (standard {} (some "config.json")).path :=
    ⟨rfl, [], _, rfl⟩
  exact ⟨hrestorable, haccepts,
    load_save_attempts {} {} (some "config.json") fiveCalls hrestorable haccepts⟩

/-! ### What is not restored -/

/-- Settings are saved only if they are written to their end. -/
theorem IsRestored.fault_eq {fresh : Settings} (h : IsRestored stack fresh s disk working) :
    (s.written stack).fault = none := by
  obtain ⟨left, hsave, -⟩ := h
  unfold save at hsave
  split at hsave
  · split at hsave
    next hfault => exact hfault
    next => simp at hsave
  · simp at hsave
  · simp at hsave

/-- Settings are written to their end only if each value is. -/
theorem fault_written (hvalue : s.value? name = some value)
    (hfault : ∀ room, room < stack.writing →
      (value.stream ⟨some 4, true⟩ room 1 []).fault ≠ none) :
    (s.written stack).fault ≠ none := by
  obtain ⟨room, hroom⟩ : ∃ n, stack.writing = n + 1 :=
    ⟨stack.writing - 1, by have htwo := stack.two_le_writing; omega⟩
  have hm : (Wide.ofString name, value) ∈ s.members :=
    List.mem_map_of_mem (OrderedMap.mem_entries_of_find? hvalue)
  intro hwhole
  rw [written, hroom] at hwhole
  exact hfault room (by omega) (Json.fault_stream_member hwhole hm)

/-- What saving leaves on the disk is told by what is written and where. -/
theorem disk_save_eq (s : Settings) (stack : Stack) (disk : Disk) (working : Path) :
    (s.save stack disk working).2.1 = (s.write stack disk working).1 := by
  unfold save
  split
  · next hwrite =>
    rw [hwrite]
    split <;> rfl
  · next hwrite => rw [hwrite]
  · next hwrite => rw [hwrite]

/-- Of settings that are written alike to one place, fresh settings restore only one. -/
theorem IsRestored.values_eq {fresh : Settings} (hs : IsRestored stack fresh s disk working)
    (ht : IsRestored stack fresh t disk working) (hpath : s.path = t.path)
    (hwritten : s.written stack = t.written stack) : s.values = t.values := by
  obtain ⟨left, hsave, hload⟩ := hs
  obtain ⟨left', hsave', hload'⟩ := ht
  have hwrite : s.write stack disk working = t.write stack disk working := by
    unfold write
    rw [hpath, hwritten]
  have hleft : left = left' := by
    have h := disk_save_eq s stack disk working
    rw [hwrite, ← disk_save_eq t stack disk working, hsave, hsave'] at h
    exact h
  rw [hleft, hload'] at hload
  exact (congrArg (fun result => result.1.values) hload).symm

/-- Settings that differ in values which are written alike are written alike. -/
theorem written_put_eq {v w : Json Wide} (hname : name ∈ s.values.keys)
    (h : ∀ room, v.stream ⟨some 4, true⟩ room 1 [] = w.stream ⟨some 4, true⟩ room 1 []) :
    (s.put name v).written stack = (s.put name w).written stack := by
  obtain ⟨room, hroom⟩ : ∃ n, stack.writing = n + 1 :=
    ⟨stack.writing - 1, by have htwo := stack.two_le_writing; omega⟩
  have hmembers (value : Json Wide) : (s.put name value).members =
      s.values.entries.map fun e =>
        (.ofString e.1, if e.1 = name then value else e.2) := by
    have hcontains : s.values.contains name = true :=
      (OrderedMap.contains_iff_mem_keys s.values name).mpr hname
    rw [members, put, OrderedMap.insert, OrderedMap.alter, if_pos hcontains, List.map_map]
    refine List.map_congr_left fun e _ => ?_
    by_cases he : e.1 = name <;> simp [he]
  rw [written, written, hroom]
  refine Json.stream_object_congr ?_ ?_
  · rw [hmembers, hmembers, List.map_map, List.map_map]
    refine List.map_congr_left fun e _ => ?_
    simp only [Function.comp_apply]
    by_cases he : e.1 = name <;> simp [he, h]
  · rw [hmembers, hmembers, List.isEmpty_map, List.isEmpty_map]

/-- Both halves of a pair. -/
def halves : Wide := ⟨[.ofUnit 0xD800, .ofUnit 0xDC00]⟩

/-- The character of the pair. -/
def joined : Wide := ⟨[.char (Char.ofNat 0x10000)]⟩

/-- The halves are written like the character. -/
theorem stream_halves_eq (room : Nat) :
    (Json.text halves).stream ⟨some 4, true⟩ room 1 [] =
      (Json.text joined).stream ⟨some 4, true⟩ room 1 [] := by
  rw [Json.stream, Json.stream]
  rfl

/-- An output path of both halves of a pair is not restored, as the character of the pair is. -/
theorem not_isRestored_halves (stack : Stack) (environment : Environment) (path : Option String)
    (haccepts : disk.Accepts working (standard environment path).path) :
    ¬ IsRestored stack (standard environment path)
      ((standard environment path).put "output_path" (.text halves)) disk working := by
  have hname : "output_path" ∈ standardValues.keys := by decide
  have hkept : Kept stack (.text joined) := kept_text (List.IsChain.singleton _)
  have hsettled : Settled stack ((standard environment path).put "output_path" (.text joined)) :=
    (settled_standard stack environment path).put hname (Or.inl rfl) rfl
  have hrestorable :
      ((standard environment path).put "output_path" (.text joined)).Restorable stack := by
    refine ⟨hkept, fun suffix hsuffix => ?_⟩
    have hlisted :
        ((standard environment path).put "output_path" (.text joined)).value "grouped_suffixes" =
          listed ["spr", "act"] := rfl
    rw [hlisted] at hsuffix
    obtain ⟨name, -, hsame⟩ := List.mem_map.mp hsuffix
    exact Json.text.inj hsame ▸ Wide.unpaired_ofString name
  have hjoined : IsRestored stack (standard environment path)
      ((standard environment path).put "output_path" (.text joined)) disk working :=
    hsettled.isRestored hrestorable rfl rfl haccepts
  intro hhalves
  have hvalues := hhalves.values_eq hjoined rfl (written_put_eq hname stream_halves_eq)
  have hheld : (some (.text halves) : Option (Json Wide)) = some (.text joined) :=
    congrArg (fun values => values.find? "output_path") hvalues
  simp [halves, joined] at hheld

/-- An integer of 4301 digits, more brackets than there is room for and both halves of a pair are
set as output paths, and are not restored. Nothing is saved in a folder that is a file. -/
theorem not_isRestored_outputPath :
    (∀ value ∈ [Json.integer (10 ^ 4300), Json.nested 995 (.array []), .text halves],
      ¬ IsRestored {} (standard {} (some "config.json"))
        ((standard {} (some "config.json")).attempts {} [(.outputPath, value)]) Disk.empty []) ∧
    ¬ IsRestored {} (standard {} (some "folder/config.json"))
      ((standard {} (some "folder/config.json")).attempts {} [])
      (Disk.empty.putFile ["folder"] []) [] := by
  have hheld (value : Json Wide) : ((standard {} (some "config.json")).attempts {}
      [(.outputPath, value)]).value? "output_path" = some value := rfl
  refine ⟨?_, ?_⟩
  · simp only [List.forall_mem_cons]
    refine ⟨fun h => ?_, fun h => ?_, not_isRestored_halves {} {} _ ⟨rfl, [], _, rfl⟩,
      List.forall_mem_nil _⟩
    · have hlong : Json.isTooLong (10 ^ 4300) = true := Json.isTooLong_pow (Nat.le_refl _)
      exact fault_written (hheld _) (fun room _ => Json.fault_stream_integer hlong) h.fault_eq
    · exact fault_written (hheld _) (fun room hroom => Json.fault_stream_nested hroom _) h.fault_eq
  · rintro ⟨left, hsave, -⟩
    have hrefused : ((standard {} (some "folder/config.json")).save {}
        (Disk.empty.putFile ["folder"] []) []).2.2.2 = .ok false := rfl
    exact absurd (hrefused.symm.trans (congrArg (fun saved => saved.2.2.2) hsave)) (by simp)

end Settings

end ArchiveExport
