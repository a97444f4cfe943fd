/-
# `BackupCli.Restore.Util` — loading the backup meta, and the id pairs of a table

`LoadBackupTables`, `GroupIDPairs` and `groupFiles` of `pkg/restore/util.go`.  What they
call outside the package belongs to TiDB and the JSON library, which are not in the
sources: `Codecs` stands for it (`json.Unmarshal` of a database and of a table schema, and
`tablecodec.DecodeKeyHead` by the table id it returns).

* An error is `Option String`, `none` being nil; `errors.Trace(nil)` is nil.
* Go's `map[string]*Database` is an association list: `databases[name]` is the first entry
  of that name, and a missing name is added at the end.
* `strings.HasSuffix` and `strings.TrimSuffix` are read off the characters.
* A panic (a nil dereference) is an `.error` carrying Go's message.

In `LoadBackupTables`, the branch for a write file whose start and end keys decode to two
table ids returns `errors.Trace(err)`, and `err` there is the nil error of the decode just
done: the function returns no map and no error.

## What is proved

* `collectTableFiles_ok`, `loadSchemas_ok` — when the load succeeds, each schema's table
  holds exactly the pairs whose write file starts in its table, in order, and sits under
  its database's name, after the tables of the schemas before it.
* `collectTableFiles_mismatch` — a write file whose keys decode to two tables, met before
  any other bad file, makes the file loop fail with a nil error.
* `loadBackupTables_result` — both, for every backup meta.
* `groupIDPairs_some` — `GroupIDPairs` maps the source table's id to itself, and each
  source index to every destination index of the same name; `groupIDPairs_none` — with a
  nil destination it returns only for a table without indices.
-/
import BackupCli.Codec.Bytes

namespace BackupCli.Restore

/-- `backup.File`, by the fields read. -/
structure BackupFile where
  name : String
  startKey : Bytes
  endKey : Bytes
deriving DecidableEq, Repr

/-- `FilePair`: a write file and its default file, nil when there is none. -/
structure FilePair where
  default : Option BackupFile
  write : BackupFile
deriving DecidableEq, Repr

/-- `backup.Schema`: the JSON of a database and of one of its tables. -/
structure Schema where
  db : Bytes
  table : Bytes
deriving DecidableEq, Repr

/-- `backup.BackupMeta`, by the fields read. -/
structure BackupMeta where
  files : List BackupFile
  schemas : List Schema
deriving DecidableEq, Repr

/-- `model.DBInfo`, by its name (`Name.O`). -/
structure DBInfo where
  name : String
deriving DecidableEq, Repr

/-- `model.IndexInfo`, by the fields the restore reads.  A `model.CIStr` name is its
original string, of which the lower-case one is a function. -/
structure IndexInfo where
  id : Int
  name : String
deriving DecidableEq, Repr

/-- `model.TableInfo`, by the fields the restore reads. -/
structure TableInfo where
  id : Int
  name : String
  indices : List IndexInfo
deriving DecidableEq, Repr

/-- `Table`: its database, its schema and its files.  The random `Uuid` is left out, and so
are `RestoredFileCount` and `Finished`, which nothing reads. -/
structure Table where
  db : DBInfo
  schema : TableInfo
  files : List FilePair
deriving DecidableEq, Repr

/-- `Database`. -/
structure Database where
  schema : DBInfo
  tables : List Table
deriving DecidableEq, Repr

/-- What the package calls outside itself. -/
structure Codecs where
  /-- `json.Unmarshal` of a `model.DBInfo`. -/
  unmarshalDB : Bytes → Except String DBInfo
  /-- `json.Unmarshal` of a `model.TableInfo`. -/
  unmarshalTable : Bytes → Except String TableInfo
  /-- `tablecodec.DecodeKeyHead`, by the table id it returns. -/
  decodeKeyHead : Bytes → Except String Int

/-- `tablecodec.TablePrefix()`: `t`. -/
def tablePrefix : Bytes := [0x74]

/-- `strings.HasSuffix(s, suffix)`. -/
def hasSuffix (s suffix : String) : Bool := suffix.toList.isSuffixOf s.toList

/-- `strings.TrimSuffix(s, suffix)`. -/
def trimSuffix (s suffix : String) : String :=
  if hasSuffix s suffix then ⟨s.toList.take (s.length - suffix.length)⟩ else s

/-- `groupFiles(files)`: a pair for each write file, whose default file is the last file
named like it with `default` in place of `write`. -/
def groupFiles (files : List BackupFile) : List FilePair :=
  files.foldl (fun filePairs file =>
    if hasSuffix file.name "write" then
      let defaultName := trimSuffix file.name "write" ++ "default"
      let defaultFile := files.foldl (fun d f => if f.name = defaultName then some f else d) none
      filePairs ++ [⟨defaultFile, file⟩]
    else filePairs) []

/-- `databases[table.Db.Name.O]`, created on first use, gets the table appended. -/
def addTable : List (String × Database) → Table → List (String × Database)
  | [], table => [(table.db.name, ⟨table.db, [table]⟩)]
  | (name, db) :: rest, table =>
      if name = table.db.name then (name, { db with tables := db.tables ++ [table] }) :: rest
      else (name, db) :: addTable rest table

/-- `databases[name].Tables`, nil when the name is not in the map. -/
def tablesOf (databases : List (String × Database)) (name : String) : List Table :=
  ((databases.lookup name).map Database.tables).getD []

/-- `import_kvpb.IdPair`. -/
structure IdPair where
  oldId : Int
  newId : Int
deriving DecidableEq, Repr

/-- The inner loop of `GroupIDPairs`: a pair for each destination index named like `src`. -/
def matchIndex (src : IndexInfo) : List IdPair → List IndexInfo → List IdPair
  | indexIDs, [] => indexIDs
  | indexIDs, dest :: rest =>
      matchIndex src (if src.name = dest.name then indexIDs ++ [⟨src.id, dest.id⟩] else indexIDs)
        rest

/-- The outer loop of `GroupIDPairs`: `destTable.Indices` is read once per source index,
which panics when `destTable` is nil. -/
def matchIndices (destTable : Option TableInfo) : List IdPair → List IndexInfo →
    Except String (List IdPair)
  | indexIDs, [] => .ok indexIDs
  | indexIDs, src :: rest =>
      match destTable with
      | none => .error "invalid memory address or nil pointer dereference"
      | some dest => matchIndices destTable (matchIndex src indexIDs dest.indices) rest

/-- `GroupIDPairs(srcTable, destTable)`: the table's pair, then the index pairs. -/
def groupIDPairs (srcTable : TableInfo) (destTable : Option TableInfo) :
    Except String (List IdPair × List IdPair) :=
  let tableIDs : List IdPair := [] ++ [⟨srcTable.id, srcTable.id⟩]
  match matchIndices destTable [] srcTable.indices with
  | .error e => .error e
  | .ok indexIDs => .ok (tableIDs, indexIDs)

section Load
variable (C : Codecs)

/-- The file loop of `LoadBackupTables` for one table.  Pairs whose write file does not
start with the table prefix are skipped; a key that does not decode returns its error; keys
of two tables return `errors.Trace(err)` of the nil `err` the last decode left; a pair
whose write file starts in `tableID` is kept. -/
def collectTableFiles (tableID : Int) :
    List FilePair → List FilePair → Except (Option String) (List FilePair)
  | tableFiles, [] => .ok tableFiles
  | tableFiles, pair :: rest =>
      if !tablePrefix.isPrefixOf pair.write.startKey then
        collectTableFiles tableID tableFiles rest
      else
        match C.decodeKeyHead pair.write.startKey with
        | .error err => .error (some err)
        | .ok startTableID =>
            match C.decodeKeyHead pair.write.endKey with
            | .error err => .error (some err)
            | .ok endTableID =>
                if startTableID ≠ endTableID then .error none
                else if startTableID = tableID then
                  collectTableFiles tableID (tableFiles ++ [pair]) rest
                else collectTableFiles tableID tableFiles rest

/-- The schema loop of `LoadBackupTables`. -/
def loadSchemas (filePairs : List FilePair) :
    List (String × Database) → List Schema → Option (List (String × Database)) × Option String
  | databases, [] => (some databases, none)
  | databases, schema :: rest =>
      match C.unmarshalDB schema.db with
      | .error err => (none, some err)
      | .ok dbInfo =>
          match C.unmarshalTable schema.table with
          | .error err => (none, some err)
          | .ok tableInfo =>
              match collectTableFiles C tableInfo.id [] filePairs with
              | .error err => (none, err)
              | .ok tableFiles =>
                  loadSchemas filePairs (addTable databases ⟨dbInfo, tableInfo, tableFiles⟩) rest

/-- `LoadBackupTables(meta)`: the map and the error. -/
def loadBackupTables (meta : BackupMeta) : Option (List (String × Database)) × Option String :=
  loadSchemas C (groupFiles meta.files) [] meta.schemas

/-- Whether a file pair belongs to a table: its write file's start key has the table prefix
and decodes to the table's id. -/
def fileOfTable (tableID : Int) (pair : FilePair) : Bool :=
  tablePrefix.isPrefixOf pair.write.startKey &&
    match C.decodeKeyHead pair.write.startKey with
    | .ok id => id == tableID
    | .error _ => false

/-! ## A successful load -/

theorem collectTableFiles_ok {tableID : Int} :
    ∀ {tableFiles pairs r : List FilePair}, collectTableFiles C tableID tableFiles pairs = .ok r →
      r = tableFiles ++ pairs.filter (fileOfTable C tableID)
  | _, [], _, h => by cases h; simp
  | tableFiles, pair :: rest, r, h => by
      unfold collectTableFiles at h
      by_cases hp : tablePrefix.isPrefixOf pair.write.startKey
      · simp only [hp, Bool.not_true, Bool.false_eq_true, if_false] at h
        cases hs : C.decodeKeyHead pair.write.startKey with
        | error err => simp [hs] at h
        | ok s =>
          cases he : C.decodeKeyHead pair.write.endKey with
          | error err => simp [hs, he] at h
          | ok e =>
              simp only [hs, he] at h
              split_ifs at h with hne hid
              · rw [collectTableFiles_ok h]; simp [fileOfTable, hp, hs, hid]
              · rw [collectTableFiles_ok h]; simp [fileOfTable, hp, hs, hid]
      · simp only [hp, Bool.not_false, if_true] at h
        rw [collectTableFiles_ok h]; simp [fileOfTable, hp]

theorem lookup_cons_ite (a k : String) (db : Database) (rest : List (String × Database)) :
    ((k, db) :: rest).lookup a = if a = k then some db else rest.lookup a := by
  rw [List.lookup_cons]
  cases hb : a == k
  · simp [ne_of_beq_false hb]
  · simp [beq_iff_eq.1 hb]

theorem tablesOf_addTable (table : Table) (name : String) :
    ∀ databases : List (String × Database), tablesOf (addTable databases table) name =
      tablesOf databases name ++ if table.db.name = name then [table] else []
  | [] => by
      by_cases h : name = table.db.name
      · simp [addTable, tablesOf, lookup_cons_ite, h]
      · simp [addTable, tablesOf, lookup_cons_ite, h, Ne.symm h]
  | (n, db) :: rest => by
      have ih := tablesOf_addTable table name rest
      simp only [tablesOf] at ih
      by_cases h : name = n
      · subst h
        by_cases hn : name = table.db.name
        · simp [addTable, tablesOf, lookup_cons_ite, hn]
        · simp [addTable, tablesOf, lookup_cons_ite, hn, Ne.symm hn]
      · by_cases hn : n = table.db.name
        · subst hn; simp [addTable, tablesOf, lookup_cons_ite, h, Ne.symm h]
        · simp [addTable, tablesOf, lookup_cons_ite, hn, h, ih]

/-- A schema loop that returns a map built each schema's table from its JSON and the pairs
whose write file starts in it, and appended it under its database's name, in order. -/
theorem loadSchemas_ok {filePairs : List FilePair} :
    ∀ {databases : List (String × Database)} {schemas : List Schema}
      {databases' : List (String × Database)},
      loadSchemas C filePairs databases schemas = (some databases', none) →
      ∃ tables : List Table,
        List.Forall₂ (fun schema table => C.unmarshalDB schema.db = .ok table.db ∧
            C.unmarshalTable schema.table = .ok table.schema ∧
            table.files = filePairs.filter (fileOfTable C table.schema.id)) schemas tables ∧
        ∀ name, tablesOf databases' name =
          tablesOf databases name ++ tables.filter (·.db.name = name)
  | _, [], _, h => by cases h; exact ⟨[], .nil, by simp⟩
  | databases, schema :: rest, databases', h => by
      unfold loadSchemas at h
      cases hdb : C.unmarshalDB schema.db with
      | error err => simp [hdb] at h
      | ok dbInfo =>
        cases htbl : C.unmarshalTable schema.table with
        | error err => simp [hdb, htbl] at h
        | ok tableInfo =>
          cases hf : collectTableFiles C tableInfo.id [] filePairs with
          | error err => simp [hdb, htbl, hf] at h
          | ok tableFiles =>
              simp only [hdb, htbl, hf] at h
              obtain ⟨tables, hall, hnames⟩ := loadSchemas_ok h
              refine ⟨⟨dbInfo, tableInfo, tableFiles⟩ :: tables,
                .cons ⟨hdb, htbl, by simpa using collectTableFiles_ok C hf⟩ hall, fun name => ?_⟩
              rw [hnames, tablesOf_addTable]
              by_cases hn : dbInfo.name = name <;> simp [hn]

/-! ## Keys of two tables -/

theorem collectTableFiles_mismatch {tableID : Int} {pair : FilePair} {post : List FilePair}
    (hpfx : tablePrefix.isPrefixOf pair.write.startKey = true) {s e : Int}
    (hstart : C.decodeKeyHead pair.write.startKey = .ok s)
    (hend : C.decodeKeyHead pair.write.endKey = .ok e) (hne : s ≠ e) :
    ∀ {pre : List FilePair}, (∀ p ∈ pre, tablePrefix.isPrefixOf p.write.startKey = true →
        ∃ id, C.decodeKeyHead p.write.startKey = .ok id ∧ C.decodeKeyHead p.write.endKey = .ok id) →
      ∀ tableFiles, collectTableFiles C tableID tableFiles (pre ++ pair :: post) = .error none
  | [], _, tableFiles => by simp [collectTableFiles, hpfx, hstart, hend, hne]
  | p :: pre, hpre, tableFiles => by
      have ih := @collectTableFiles_mismatch tableID pair post hpfx s e hstart hend hne pre
        (fun q hq => hpre q (List.mem_cons_of_mem p hq))
      by_cases hp : tablePrefix.isPrefixOf p.write.startKey
      · obtain ⟨id, hs, he⟩ := hpre p (List.mem_cons_self p pre) hp
        by_cases hid : id = tableID <;> simp [collectTableFiles, hp, hs, he, hid, ih]
      · simp [collectTableFiles, hp, ih]

/-- What `LoadBackupTables` returns, for every backup meta.  A successful load gives each
schema's table exactly the pairs whose write file starts in it, under its database's name
and in schema order.  But once a write file whose keys decode to two tables is the first
bad file the first schema's loop meets, the load returns no map and a nil error. -/
theorem loadBackupTables_result (meta : BackupMeta) :
    (∀ databases, loadBackupTables C meta = (some databases, none) →
      ∃ tables : List Table,
        List.Forall₂ (fun schema table => C.unmarshalDB schema.db = .ok table.db ∧
            C.unmarshalTable schema.table = .ok table.schema ∧
            table.files = (groupFiles meta.files).filter (fileOfTable C table.schema.id))
          meta.schemas tables ∧
        ∀ name, tablesOf databases name = tables.filter (·.db.name = name)) ∧
    (∀ schema rest dbInfo tableInfo pre pair post s e, meta.schemas = schema :: rest →
      C.unmarshalDB schema.db = .ok dbInfo → C.unmarshalTable schema.table = .ok tableInfo →
      groupFiles meta.files = pre ++ pair :: post →
      (∀ p ∈ pre, tablePrefix.isPrefixOf p.write.startKey = true →
        ∃ id, C.decodeKeyHead p.write.startKey = .ok id ∧ C.decodeKeyHead p.write.endKey = .ok id) →
      tablePrefix.isPrefixOf pair.write.startKey = true →
      C.decodeKeyHead pair.write.startKey = .ok s → C.decodeKeyHead pair.write.endKey = .ok e →
      s ≠ e → loadBackupTables C meta = (none, none)) := by
  refine ⟨fun databases h => ?_, fun schema rest dbInfo tableInfo pre pair post s e hs hdb htbl
    hfiles hpre hpfx hstart hend hne => ?_⟩
  · obtain ⟨tables, hall, hnames⟩ := loadSchemas_ok C h
    exact ⟨tables, hall, fun name => by simpa [tablesOf] using hnames name⟩
  · simp [loadBackupTables, loadSchemas, hs, hdb, htbl, hfiles,
      collectTableFiles_mismatch C hpfx hstart hend hne hpre]

end Load

/-- Codecs for the examples: one database and one index-less table of id 1, and a key whose
table id is its byte after the prefix. -/
def byteCodecs : Codecs where
  unmarshalDB _ := .ok ⟨"db"⟩
  unmarshalTable _ := .ok ⟨1, "t", []⟩
  decodeKeyHead
    | 0x74 :: id :: _ => .ok id.toNat
    | _ => .error "invalid encoded key"

/-- One schema, and one write file whose keys lie in tables 1 and 2. -/
def twoTableFileMeta : BackupMeta := ⟨[⟨"1_write", [0x74, 1], [0x74, 2]⟩], [⟨[], []⟩]⟩

theorem loadBackupTables_two_table_file :
    loadBackupTables byteCodecs twoTableFileMeta = (none, none) :=
  (loadBackupTables_result byteCodecs twoTableFileMeta).2 _ [] _ _ [] _ [] 1 2 rfl rfl rfl rfl
    (by simp) rfl rfl rfl (by decide)

/-! ## The id pairs -/

theorem matchIndex_eq (src : IndexInfo) :
    ∀ (indexIDs : List IdPair) (dests : List IndexInfo), matchIndex src indexIDs dests =
      indexIDs ++ (dests.filter (src.name = ·.name)).map fun d => ⟨src.id, d.id⟩
  | _, [] => by simp [matchIndex]
  | indexIDs, dest :: rest => by
      by_cases h : src.name = dest.name <;> simp [matchIndex, matchIndex_eq _ _ rest, h]

theorem matchIndices_some (destTable : TableInfo) :
    ∀ (indexIDs : List IdPair) (srcs : List IndexInfo),
      matchIndices (some destTable) indexIDs srcs = .ok (indexIDs ++ srcs.flatMap fun s =>
        (destTable.indices.filter (s.name = ·.name)).map fun d => ⟨s.id, d.id⟩)
  | _, [] => by simp [matchIndices]
  | indexIDs, src :: rest => by
      simp [matchIndices, matchIndices_some _ _ rest, matchIndex_eq]

/-- `GroupIDPairs` of two schemas: the source table's id paired with itself, then, in
source-index order, each source index paired with every destination index of its name. -/
theorem groupIDPairs_some (srcTable destTable : TableInfo) :
    groupIDPairs srcTable (some destTable) = .ok ([⟨srcTable.id, srcTable.id⟩],
      srcTable.indices.flatMap fun s =>
        (destTable.indices.filter (s.name = ·.name)).map fun d => ⟨s.id, d.id⟩) := by
  simp [groupIDPairs, matchIndices_some]

theorem groupIDPairs_none {srcTable : TableInfo} {ids : List IdPair × List IdPair}
    (h : groupIDPairs srcTable none = .ok ids) : srcTable.indices = [] := by
  cases hs : srcTable.indices with
  | nil => rfl
  | cons src rest => simp [groupIDPairs, hs, matchIndices] at h

theorem groupIDPairs_keeps_source_id :
    groupIDPairs ⟨1, "t", [⟨1, "i"⟩]⟩ (some ⟨2, "t", [⟨3, "i"⟩]⟩) = .ok ([⟨1, 1⟩], [⟨1, 3⟩]) :=
  groupIDPairs_some _ _

end BackupCli.Restore
