import Mathlib.Data.List.Basic

/-!
# The log level of the execution server

`set_log_level` rewrites `customer.config`: it reads the XML as nested Python
data, sets one setting in it and writes it back. An element that occurs once is
a mapping in these data, and one that occurs several times is a list.
-/

namespace ShellTests.DebugLogs

-- ---------------------------------------------------------------------------
-- The data of xmltodict
-- ---------------------------------------------------------------------------

inductive Data where
  | none
  | text : String → Data
  | dict : (items : List (String × Data)) → Data
  | list : (items : List Data) → Data

/-- `items[key] = value` -/
def setItem (key : String) (value : α) : List (String × α) → List (String × α)
  | [] => [(key, value)]
  | (k, v) :: rest => if k = key then (key, value) :: rest else (k, v) :: setItem key value rest

namespace Data

/-- `data[key]` -/
def getItem (key : String) : Data → Except String Data
  | .none => .error "'NoneType' object is not subscriptable"
  | .text _ => .error "string indices must be integers"
  | .list _ => .error "list indices must be integers or slices, not str"
  | .dict items => match items.lookup key with
    | some data => .ok data
    | .none => .error key

/-- `data[key] = value`, where `data[key]` is there. -/
def setKey (data : Data) (key : String) (value : Data) : Data :=
  match data with
  | .dict items => .dict (setItem key value items)
  | data => data

/-- `for item in data` -/
def iter : Data → Except String (List Data)
  | .none => .error "'NoneType' object is not iterable"
  | .text s => .ok (s.toList.map fun c => .text (String.singleton c))
  | .dict items => .ok (items.map fun item => .text item.1)
  | .list items => .ok items

/-- `data.append(item)` -/
def append (data item : Data) : Except String Data :=
  match data with
  | .none => .error "'NoneType' object has no attribute 'append'"
  | .text _ => .error "'str' object has no attribute 'append'"
  | .dict _ => .error "'dict' object has no attribute 'append'"
  | .list items => .ok (.list (items ++ [item]))

def isText (s : String) : Data → Bool
  | .text s' => s' = s
  | _ => false

end Data

def settingName : String := "DefaultPythonEnvrionmentVariables"

/-- The loop over the settings, up to the one that it sets and leaves at. -/
def setFirst (valueStr : String) : List Data → Except String (Option (List Data))
  | [] => .ok none
  | setting :: rest => do
    let key ← setting.getItem "@key"
    if key.isText settingName then
      pure (some (setting.setKey "@value" (.text valueStr) :: rest))
    else
      let rest ← setFirst valueStr rest
      pure (rest.map (setting :: ·))

def updated (valueStr : String) (data : Data) : Except String Data := do
  let appSettings ← data.getItem "appSettings"
  let settings ← appSettings.getItem "add"
  let found ← setFirst valueStr (← settings.iter)
  let settings ← match found with
    -- the items are those of a list: those of a mapping or of a text have no `"@key"`
    | some items => pure (.list items)
    | none => settings.append (.dict [("@key", .text settingName), ("@value", .text valueStr)])
  pure (data.setKey "appSettings" (appSettings.setKey "add" settings))

-- `xmltodict`
variable (parse : String → Except String Data) (unparse : Data → String)

/-- From the content of the file to what is written to it. -/
def setLogLevel (level : String) (strData : String) : Except String String := do
  let data ← parse strData
  let data ← updated s!"LOG_LEVEL={level}" data
  pure (unparse data)

/-- An `add` element: its attributes and whatever it has in it. -/
structure Entry where
  items : List (String × Data)
  key : String
  hasKey : items.lookup "@key" = some (.text key)

def Entry.data (entry : Entry) : Data := .dict entry.items

def Entry.value (entry : Entry) : Option Data := entry.items.lookup "@value"

structure Config where
  before : List (String × Data)
  entries : List Entry
  after : List (String × Data)
  no_add : ∀ item ∈ before ++ after, item.1 ≠ "add"

namespace Config

/-- No child element gives no list, one gives a mapping, and several give a list. -/
def addData : List Entry → List (String × Data)
  | [] => []
  | [entry] => [("add", entry.data)]
  | entries => [("add", .list (entries.map Entry.data))]

/-- What the file is parsed to. An element without anything in it is `None`. -/
def data (config : Config) : Data :=
  .dict [("appSettings", match config.before ++ addData config.entries ++ config.after with
    | [] => .none
    | items => .dict items)]

def withEntries (config : Config) (entries : List Entry) : Config := { config with entries }

end Config

section
variable {items : List (String × α)}

theorem lookup_setItem (key : String) (value : α) (items : List (String × α)) :
    (setItem key value items).lookup key = some value := by
  induction items with
  | nil => simp [setItem]
  | cons item items ih =>
    obtain ⟨k, v⟩ := item
    rw [setItem]
    split
    next => simp
    next hne => rw [List.lookup_cons, beq_eq_false_iff_ne.mpr (Ne.symm hne), ih]

theorem lookup_setItem_ne {key key' : String} (h : key' ≠ key) (value : α)
    (items : List (String × α)) : (setItem key value items).lookup key' = items.lookup key' := by
  induction items with
  | nil => simp [setItem, List.lookup_cons, beq_eq_false_iff_ne.mpr h]
  | cons item items ih =>
    obtain ⟨k, v⟩ := item
    rw [setItem]
    split
    next heq =>
      subst heq
      simp [List.lookup_cons, beq_eq_false_iff_ne.mpr h]
    next => rw [List.lookup_cons, List.lookup_cons, ih]

theorem setItem_setItem (key : String) (value : α) (items : List (String × α)) :
    setItem key value (setItem key value items) = setItem key value items := by
  induction items with
  | nil => simp [setItem]
  | cons item items ih =>
    obtain ⟨k, v⟩ := item
    by_cases h : k = key
    · simp [setItem, h]
    · simp [setItem, h, ih]

end

def Entry.withValue (valueStr : String) (entry : Entry) : Entry where
  items := setItem "@value" (.text valueStr) entry.items
  key := entry.key
  hasKey := by rw [lookup_setItem_ne (by decide), entry.hasKey]

def newEntry (valueStr : String) : Entry where
  items := [("@key", .text settingName), ("@value", .text valueStr)]
  key := settingName
  hasKey := rfl

-- ---------------------------------------------------------------------------
-- What a run makes of the entries
-- ---------------------------------------------------------------------------

/-- The first entry of the name gets the value, or a new last one has it. -/
def setEntry (valueStr : String) : List Entry → List Entry
  | [] => [newEntry valueStr]
  | entry :: rest =>
    if entry.key = settingName then entry.withValue valueStr :: rest
    else entry :: setEntry valueStr rest

section
variable {valueStr : String} {entries : List Entry}

theorem setFirst_cons (valueStr : String) (entry : Entry) (rest : List Data) :
    setFirst valueStr (entry.data :: rest) =
      if entry.key = settingName then .ok (some ((entry.withValue valueStr).data :: rest))
      else (setFirst valueStr rest).map (Option.map (entry.data :: ·)) := by
  have hkey : entry.data.getItem "@key" = .ok (.text entry.key) := by
    simp [Entry.data, Data.getItem, entry.hasKey]
  rw [setFirst, hkey]
  by_cases h : entry.key = settingName
  · rw [if_pos h]
    simp [Data.isText, h, bind, Except.bind, pure, Except.pure]
    rfl
  · rw [if_neg h]
    have htext : (Data.text entry.key).isText settingName = false := by simp [Data.isText, h]
    cases hrest : setFirst valueStr rest <;>
      simp [htext, bind, Except.bind, pure, Except.pure, Except.map]

theorem setFirst_entries (valueStr : String) (entries : List Entry) :
    setFirst valueStr (entries.map Entry.data) =
      .ok (if ∃ entry ∈ entries, entry.key = settingName
        then some ((setEntry valueStr entries).map Entry.data) else none) := by
  induction entries with
  | nil => simp [setFirst]
  | cons entry entries ih =>
    rw [List.map_cons, setFirst_cons, setEntry]
    by_cases h : entry.key = settingName
    · simp [h]
    · rw [if_neg h, if_neg h, ih]
      simp only [List.exists_mem_cons_iff, h, false_or]
      split <;> rfl

theorem setEntry_of_none (h : ¬ ∃ entry ∈ entries, entry.key = settingName) :
    setEntry valueStr entries = entries ++ [newEntry valueStr] := by
  induction entries with
  | nil => rfl
  | cons entry entries ih =>
    simp only [List.exists_mem_cons_iff, not_or] at h
    rw [setEntry, if_neg h.1, ih h.2, List.cons_append]

theorem length_le_setEntry (valueStr : String) (entries : List Entry) :
    entries.length ≤ (setEntry valueStr entries).length := by
  induction entries with
  | nil => simp
  | cons entry entries ih =>
    rw [setEntry]
    split
    · simp
    · simpa using ih

theorem setEntry_setEntry (valueStr : String) (entries : List Entry) :
    setEntry valueStr (setEntry valueStr entries) = setEntry valueStr entries := by
  induction entries with
  | nil => simp [setEntry, newEntry, Entry.withValue, setItem]
  | cons entry entries ih =>
    by_cases h : entry.key = settingName
    · have hkey : (entry.withValue valueStr).key = settingName := h
      simp [setEntry, h, hkey]
      simp [Entry.withValue, setItem_setItem]
    · simp [setEntry, h, ih]

theorem filter_setEntry (valueStr : String) (entries : List Entry) :
    (setEntry valueStr entries).filter (·.key ≠ settingName) =
      entries.filter (·.key ≠ settingName) := by
  induction entries with
  | nil => simp [setEntry, newEntry]
  | cons entry entries ih =>
    by_cases h : entry.key = settingName
    · have hkey : (entry.withValue valueStr).key = settingName := h
      rw [setEntry, if_pos h, List.filter_cons_of_neg (by simpa using hkey),
        List.filter_cons_of_neg (by simpa using h)]
    · rw [setEntry, if_neg h, List.filter_cons_of_pos (by simpa using h),
        List.filter_cons_of_pos (by simpa using h), ih]

theorem filter_setEntry_eq (hnodup : (entries.map Entry.key).Nodup) (valueStr : String) :
    ∃ entry, (setEntry valueStr entries).filter (·.key = settingName) = [entry] ∧
      entry.value = some (.text valueStr) := by
  induction entries with
  | nil => exact ⟨newEntry valueStr, by simp [setEntry, newEntry], rfl⟩
  | cons entry entries ih =>
    obtain ⟨hnew, hnodup⟩ := List.nodup_cons.mp hnodup
    by_cases h : entry.key = settingName
    · refine ⟨entry.withValue valueStr, ?_, lookup_setItem ..⟩
      have hrest : entries.filter (·.key = settingName) = [] := by
        refine List.filter_eq_nil_iff.mpr fun other hother heq => hnew ?_
        rw [h, ← of_decide_eq_true heq]
        exact List.mem_map_of_mem hother
      have hkey : (entry.withValue valueStr).key = settingName := h
      rw [setEntry, if_pos h, List.filter_cons_of_pos (by simpa using hkey), hrest]
    · rw [setEntry, if_neg h, List.filter_cons_of_neg (by simpa using h)]
      exact ih hnodup

end

-- ---------------------------------------------------------------------------
-- What a run makes of the file
-- ---------------------------------------------------------------------------

section
variable {config : Config} {before after : List (String × α)}

theorem lookup_between (h : ∀ item ∈ before, item.1 ≠ key) (value : α)
    (after : List (String × α)) : (before ++ (key, value) :: after).lookup key = some value := by
  induction before with
  | nil => simp
  | cons item before ih =>
    obtain ⟨hitem, hbefore⟩ := List.forall_mem_cons.mp h
    rw [List.cons_append, List.lookup_cons, beq_eq_false_iff_ne.mpr (Ne.symm hitem), ih hbefore]

theorem setItem_between (h : ∀ item ∈ before, item.1 ≠ key) (value value' : α)
    (after : List (String × α)) :
    setItem key value' (before ++ (key, value) :: after) = before ++ (key, value') :: after := by
  induction before with
  | nil => simp [setItem]
  | cons item before ih =>
    obtain ⟨hitem, hbefore⟩ := List.forall_mem_cons.mp h
    rw [List.cons_append, setItem, if_neg hitem, ih hbefore]
    rfl

theorem lookup_absent {items : List (String × α)} (h : ∀ item ∈ items, item.1 ≠ key) :
    items.lookup key = none := by
  rw [List.lookup_eq_none_iff]
  exact fun item hitem => bne_iff_ne.mpr (Ne.symm (h item hitem))

theorem Config.data_of_add (h : addData config.entries = [("add", settings)]) :
    config.data =
      .dict [("appSettings", .dict (config.before ++ ("add", settings) :: config.after))] := by
  have hitems : config.before ++ addData config.entries ++ config.after =
      config.before ++ ("add", settings) :: config.after := by
    rw [h]
    simp
  rw [Config.data, hitems]
  cases config.before <;> rfl

theorem Config.not_add_before (config : Config) : ∀ item ∈ config.before, item.1 ≠ "add" :=
  fun item hitem => config.no_add item (List.mem_append_left _ hitem)

theorem getItem_of_add (h : Config.addData config.entries = [("add", settings)]) :
    ∃ appSettings, config.data.getItem "appSettings" = .ok appSettings ∧
      appSettings.getItem "add" = .ok settings := by
  refine ⟨.dict (config.before ++ ("add", settings) :: config.after), ?_, ?_⟩
  · rw [Config.data_of_add h]
    rfl
  · rw [Data.getItem, lookup_between config.not_add_before]

theorem updated_nil (h : config.entries = []) (valueStr : String) :
    ∃ e, updated valueStr config.data = .error e := by
  have hitems : config.before ++ Config.addData config.entries ++ config.after =
      config.before ++ config.after := by
    rw [h]
    simp [Config.addData]
  rw [updated, Config.data, hitems]
  cases hall : config.before ++ config.after with
  | nil => exact ⟨_, rfl⟩
  | cons item items =>
    have hnone := lookup_absent config.no_add
    rw [hall] at hnone
    simp only [Data.getItem, List.lookup_cons_self, hnone, bind, Except.bind]
    exact ⟨_, rfl⟩

theorem updated_singleton (h : config.entries = [entry]) (valueStr : String) :
    ∃ e, updated valueStr config.data = .error e := by
  have hadd : Config.addData config.entries = [("add", entry.data)] := by
    rw [h]
    rfl
  obtain ⟨appSettings, hget, hsettings⟩ := getItem_of_add hadd
  obtain ⟨item, items, hitems⟩ : ∃ item items, entry.items = item :: items := by
    cases hnil : entry.items with
    | nil =>
      have hkey := entry.hasKey
      simp [hnil] at hkey
    | cons item items => exact ⟨item, items, rfl⟩
  have hiter : entry.data.iter = .ok (.text item.1 :: items.map fun item => .text item.1) := by
    rw [Entry.data, Data.iter, hitems]
    rfl
  have hloop : setFirst valueStr (.text item.1 :: items.map fun item => .text item.1) =
      .error "string indices must be integers" := rfl
  refine ⟨"string indices must be integers", ?_⟩
  simp only [updated, bind, Except.bind, hget, hsettings, hiter, hloop]

theorem addData_of_two_le (h : 2 ≤ entries.length) :
    Config.addData entries = [("add", .list (entries.map Entry.data))] :=
  match entries, h with
  | _ :: _ :: _, _ => rfl

theorem updated_many (h : 2 ≤ config.entries.length) (valueStr : String) :
    updated valueStr config.data =
      .ok (config.withEntries (setEntry valueStr config.entries)).data := by
  have hadd := addData_of_two_le h
  have hlength := Nat.le_trans h (length_le_setEntry valueStr config.entries)
  have hafter : (config.withEntries (setEntry valueStr config.entries)).data =
      .dict [("appSettings", .dict (config.before ++
        ("add", .list ((setEntry valueStr config.entries).map Entry.data)) :: config.after))] :=
    Config.data_of_add (addData_of_two_le hlength)
  have hget : config.data.getItem "appSettings" = .ok (.dict (config.before ++
      ("add", .list (config.entries.map Entry.data)) :: config.after)) := by
    rw [Config.data_of_add hadd]
    rfl
  have hsettings : (Data.dict (config.before ++
      ("add", .list (config.entries.map Entry.data)) :: config.after)).getItem "add" =
      .ok (.list (config.entries.map Entry.data)) := by
    rw [Data.getItem, lookup_between config.not_add_before]
  have hset (settings : Data) : config.data.setKey "appSettings" ((Data.dict (config.before ++
      ("add", .list (config.entries.map Entry.data)) :: config.after)).setKey "add" settings) =
      .dict [("appSettings", .dict (config.before ++ ("add", settings) :: config.after))] := by
    rw [Config.data_of_add hadd, Data.setKey, Data.setKey,
      setItem_between config.not_add_before]
    rfl
  simp only [updated, bind, Except.bind, hget, hsettings, Data.iter, setFirst_entries, hset,
    hafter]
  by_cases hfound : ∃ entry ∈ config.entries, entry.key = settingName
  · simp only [if_pos hfound]
    rfl
  · rw [setEntry_of_none hfound, List.map_append]
    simp only [if_neg hfound]
    rfl

end

/-- A file in which one entry has the level, and the other entries are as they
were; another run leaves it so. -/
structure LevelSet (parse : String → Except String Data) (unparse : Data → String)
    (config : Config) (level strData : String) (entries : List Entry) : Prop where
  read : parse strData = .ok (config.withEntries entries).data
  one : ∃ entry, entries.filter (·.key = settingName) = [entry] ∧
    entry.value = some (.text s!"LOG_LEVEL={level}")
  others : entries.filter (·.key ≠ settingName) = config.entries.filter (·.key ≠ settingName)
  again : setLogLevel parse unparse level strData = .ok strData

/-- A run sets the level of a file exactly when the file has more than one entry. -/
theorem setLogLevel_iff (parse : String → Except String Data) (unparse : Data → String)
    (config : Config) (hnodup : (config.entries.map Entry.key).Nodup) (level : String)
    (hread : parse strData = .ok config.data)
    (hwritten : ∀ data, updated s!"LOG_LEVEL={level}" config.data = .ok data →
      parse (unparse data) = .ok data) :
    (∃ strData' entries, setLogLevel parse unparse level strData = .ok strData' ∧
      LevelSet parse unparse config level strData' entries) ↔ 2 ≤ config.entries.length := by
  have hrun {data : Data} (hdata : updated s!"LOG_LEVEL={level}" config.data = .ok data) :
      setLogLevel parse unparse level strData = .ok (unparse data) := by
    simp only [setLogLevel, bind, Except.bind, hread, hdata]
    rfl
  constructor
  · rintro ⟨strData', entries, hok, -⟩
    by_contra hshort
    have hraise : ∃ e, updated s!"LOG_LEVEL={level}" config.data = .error e := by
      match hentries : config.entries with
      | [] => exact updated_nil hentries _
      | [_] => exact updated_singleton hentries _
      | _ :: _ :: _ => simp [hentries] at hshort
    obtain ⟨e, he⟩ := hraise
    simp [setLogLevel, bind, Except.bind, hread, he] at hok
  · intro hmany
    have hdata := updated_many hmany s!"LOG_LEVEL={level}"
    have hparse := hwritten _ hdata
    refine ⟨_, setEntry s!"LOG_LEVEL={level}" config.entries, hrun hdata, hparse,
      filter_setEntry_eq hnodup _, filter_setEntry .., ?_⟩
    have hmany' : 2 ≤ (config.withEntries
        (setEntry s!"LOG_LEVEL={level}" config.entries)).entries.length :=
      Nat.le_trans hmany (length_le_setEntry ..)
    have hagain := updated_many hmany' s!"LOG_LEVEL={level}"
    have hsame : (config.withEntries (setEntry s!"LOG_LEVEL={level}" config.entries)).withEntries
        (setEntry s!"LOG_LEVEL={level}" (config.withEntries
          (setEntry s!"LOG_LEVEL={level}" config.entries)).entries) =
        config.withEntries (setEntry s!"LOG_LEVEL={level}" config.entries) :=
      congrArg config.withEntries (setEntry_setEntry ..)
    rw [hsame] at hagain
    simp only [setLogLevel, bind, Except.bind, hparse, hagain]
    rfl

def entryOf (key value : String) : Entry where
  items := [("@key", .text key), ("@value", .text value)]
  key := key
  hasKey := rfl

def configOf (entries : List Entry) : Config where
  before := []
  entries := entries
  after := []
  no_add := nofun

/-- `xmltodict` on a file with two settings, and on what is written for it. -/
def parseTwo (strData : String) : Except String Data :=
  if strData = "<appSettings><add key='A' value='1'/><add key='B' value='2'/></appSettings>" then
    .ok (configOf [entryOf "A" "1", entryOf "B" "2"]).data
  else .ok (configOf [entryOf "A" "1", entryOf "B" "2", newEntry "LOG_LEVEL=DEBUG"]).data

def unparseTwo : Data → String := fun _ =>
  "<appSettings><add key='A' value='1'/><add key='B' value='2'/>" ++
    "<add key='DefaultPythonEnvrionmentVariables' value='LOG_LEVEL=DEBUG'/></appSettings>"

theorem setLogLevel_iff_two : ∃ strData' entries,
    setLogLevel parseTwo unparseTwo "DEBUG"
        "<appSettings><add key='A' value='1'/><add key='B' value='2'/></appSettings>" =
      .ok strData' ∧
    LevelSet parseTwo unparseTwo (configOf [entryOf "A" "1", entryOf "B" "2"]) "DEBUG" strData'
      entries := by
  refine (setLogLevel_iff parseTwo unparseTwo (configOf [entryOf "A" "1", entryOf "B" "2"])
    (by decide) "DEBUG" rfl fun data hdata => ?_).mpr (by decide)
  obtain rfl := Except.ok.inj hdata
  exact if_neg (by decide +kernel)

/-- A file with one setting, and one without any. -/
theorem setLogLevel_raises :
    setLogLevel (fun _ => .ok (configOf [entryOf "A" "1"]).data) unparseTwo "DEBUG"
        "<appSettings><add key='A' value='1'/></appSettings>" =
      .error "string indices must be integers" ∧
    setLogLevel (fun _ => .ok (configOf []).data) unparseTwo "DEBUG" "<appSettings/>" =
      .error "'NoneType' object is not subscriptable" :=
  ⟨rfl, rfl⟩

end ShellTests.DebugLogs
