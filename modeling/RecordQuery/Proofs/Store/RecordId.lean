import Mathlib.Data.Set.List
import RecordQuery.Proofs.Store.Collection

/-!
# Records by id

The names of files that hold records are those of ids, so a directory is read by id as it is read
as a collection, except that some names belong to ids that are never looked up. An id leads to
nothing but the entry of its name in the directory of its resource. Where that directory is found,
and where the entry leads if it is a link, is for the rest of the tree to say.
-/

namespace RecordQuery.DirectoryStore

/-! ## Ids and names -/

theorem hasDoublePoint_iff {cs : List Char} : hasDoublePoint cs = true ↔ ['.', '.'] <:+: cs := by
  fun_induction hasDoublePoint cs with
  | case1 rest => exact iff_of_true rfl ⟨[], rest, rfl⟩
  | case2 c cs hpair ih =>
    -- A pair at the front would have been found by the first case.
    have hprefix : ¬ ['.', '.'] <+: c :: cs := by
      rintro ⟨rest, hrest⟩
      obtain ⟨rfl, rfl⟩ := List.cons.inj hrest
      exact hpair rest rfl rfl
    rw [ih, List.infix_cons_iff, or_iff_right hprefix]
  | case3 => exact iff_of_false Bool.false_ne_true (by simp)

theorem isPlainId_iff {id : String} :
    isPlainId id = true ↔ id ≠ "" ∧ '/' ∉ id.toList ∧ '\\' ∉ id.toList ∧
      ¬ ['.', '.'] <:+: id.toList := by
  rw [← hasDoublePoint_iff]
  simp [isPlainId, and_assoc]

theorem toList_recordName (id : String) :
    (recordName id).toList = id.toList ++ ("." ++ recordExtension).toList := by
  rw [recordName, String.append_assoc, String.toList_append]

theorem recordName_inj {a b : String} : recordName a = recordName b ↔ a = b := by
  rw [← String.toList_inj, toList_recordName, toList_recordName, List.append_cancel_right_eq,
    String.toList_inj]

theorem extensionOf?_eq_recordExtension_iff {name : String} :
    Pathname.extensionOf? name = some recordExtension ↔ ∃ id, id ≠ "" ∧ name = recordName id := by
  rw [Pathname.extensionOf?_eq_some_iff]
  exact and_iff_right (by decide)

theorem extensionOf?_recordName_iff {id : String} :
    Pathname.extensionOf? (recordName id) = some recordExtension ↔ id ≠ "" := by
  rw [extensionOf?_eq_recordExtension_iff]
  constructor
  · rintro ⟨other, hother, hname⟩
    rwa [recordName_inj.mp hname]
  · exact fun h => ⟨id, h, rfl⟩

/-- The name of an id without a slash is that of an entry, since it is never `.` or `..`. -/
theorem isSingle_recordName {id : String} (h : '/' ∉ id.toList) :
    Pathname.IsSingle (recordName id) := by
  have hletter : 'j' ∈ (recordName id).toList := by
    rw [toList_recordName]
    exact List.mem_append_right _ (by decide)
  have hne : ∀ {name : String}, 'j' ∉ name.toList → recordName id ≠ name :=
    fun hname he => hname (he ▸ hletter)
  refine ⟨?_, ?_, hne (by decide)⟩
  · rw [toList_recordName, List.mem_append]
    exact not_or.mpr ⟨h, by decide⟩
  · simp only [Pathname.isIdle, Bool.or_eq_false_iff, decide_eq_false_iff_not]
    exact ⟨hne (by decide), hne (by decide)⟩

/-! ## Reading one record -/

section

variable {s : DirectoryStore} {files : FileTree} {resource id : String} {path : Pathname}

theorem fetchById_of_not_isPlainId (hpath : s.directory resource = .ok path)
    (h : isPlainId id = false) :
    s.fetchById files resource id = .error (.recordNotFound resource id) := by
  simp [fetchById, hpath, h]

theorem fetchById_of_isPlainId (hpath : s.directory resource = .ok path)
    (h : isPlainId id = true) :
    s.fetchById files resource id =
      if files.isFile (path.join ⟨recordName id⟩) then readRecord files (path.join ⟨recordName id⟩)
      else .error (.recordNotFound resource id) := by
  simp [fetchById, hpath, h]

/-- A record is read by id from the file that its resource's directory has under the name of the
id. -/
theorem fetchById_eq_ok_iff {record : Record} :
    s.fetchById files resource id = .ok record ↔
      ∃ (path : Pathname) (entries : Directory) (content : List UInt8),
        s.directory resource = .ok path ∧ isPlainId id = true ∧
        files.lookup path.base = .ok (.directory entries) ∧
        IsRecordEntry files path entries (recordName id) content ∧ Holds content record := by
  cases hpath : s.directory resource with
  | error e => simp [fetchById, hpath]
  | ok path =>
    cases hid : isPlainId id with
    | false => simp [fetchById_of_not_isPlainId hpath hid]
    | true =>
      obtain ⟨hempty, hslash, -⟩ := isPlainId_iff.mp hid
      rw [fetchById_of_isPlainId hpath hid]
      constructor
      · intro h
        split at h
        next hfile =>
          obtain ⟨content, hcontent⟩ := FileTree.isFile_iff.mp hfile
          obtain ⟨hshort, entries, hentries, hentry⟩ :=
            (files.lookup_join_eq_ok_file_iff (isSingle_recordName hslash)).mp hcontent
          exact ⟨path, entries, content, rfl, rfl, hentries,
            ⟨hentry, extensionOf?_recordName_iff.mpr hempty, hshort⟩,
            (readRecord_eq_ok_iff hcontent).mp h⟩
        next => cases h
      · rintro ⟨_, entries, content, ⟨⟩, -, hentries, hentry, hrecord⟩
        have hcontent := hentry.lookup hentries
        rw [if_pos (FileTree.isFile_iff.mpr ⟨content, hcontent⟩)]
        exact (readRecord_eq_ok_iff hcontent).mpr hrecord

theorem fetchById_of_hasFile {entries : Directory} {content : List UInt8} {record : Record}
    (hpath : s.directory resource = .ok path) (hid : isPlainId id = true)
    (hentries : files.lookup path.base = .ok (.directory entries))
    (hfile : files.HasFile path entries (recordName id) content)
    (hshort : (path.join ⟨recordName id⟩).text.utf8ByteSize < FileTree.pathLimit)
    (hrecord : Holds content record) : s.fetchById files resource id = .ok record :=
  have hextension := extensionOf?_recordName_iff.mpr (isPlainId_iff.mp hid).1
  fetchById_eq_ok_iff.mpr
    ⟨path, entries, content, hpath, hid, hentries, ⟨hfile, hextension, hshort⟩, hrecord⟩

end

/-! ## Ids and collections -/

theorem exists_recordNames_eq_map {files : FileTree} {path : Pathname} {entries : Directory}
    (hentries : files.lookup path.base = .ok (.directory entries)) :
    ∃ ids : List String, recordNames files path entries.keys = ids.map recordName := by
  have hnames : recordNames files path entries.keys ∈ Set.range (List.map recordName) := by
    rw [Set.range_list_map]
    intro name hname
    obtain ⟨content, hentry⟩ := (mem_recordNames_iff hentries (.refl _)).mp hname
    obtain ⟨id, -, rfl⟩ := extensionOf?_eq_recordExtension_iff.mp hentry.extension
    exact ⟨id, rfl⟩
  obtain ⟨ids, hids⟩ := hnames
  exact ⟨ids, hids.symm⟩

/-- A collection consists of what is read for a list of ids, one for each file that holds a record.
What is read by one of these ids is the same, unless a backslash or two points side by side occur
in the id: then it is not found. -/
theorem fetchById_of_collection (s : DirectoryStore) (files : FileTree) (resource : String)
    {path : Pathname} {entries : Directory} (hpath : s.directory resource = .ok path)
    (hentries : files.lookup path = .ok (.directory entries)) :
    ∃ ids : List String,
      (s.fetchCollection files resource).value =
        ids.mapM (fun id => readRecord files (path.join ⟨recordName id⟩)) ∧
      (∀ id, id ∈ ids ↔ ∃ content, IsRecordEntry files path entries (recordName id) content) ∧
      ∀ id ∈ ids,
        ('\\' ∉ id.toList ∧ ¬ ['.', '.'] <:+: id.toList →
          s.fetchById files resource id = readRecord files (path.join ⟨recordName id⟩)) ∧
        ('\\' ∈ id.toList ∨ ['.', '.'] <:+: id.toList →
          s.fetchById files resource id = .error (.recordNotFound resource id)) := by
  have hbase := FileTree.lookup_base hentries
  obtain ⟨ids, hids⟩ := exists_recordNames_eq_map hbase
  have hmem : ∀ id, id ∈ ids ↔
      ∃ content, IsRecordEntry files path entries (recordName id) content := by
    intro id
    rw [← mem_recordNames_iff hbase (.refl _), hids, List.mem_map]
    simp only [recordName_inj, exists_eq_right]
  refine ⟨ids, ?_, hmem, fun id hid => ?_⟩
  · rw [fetchCollection, value_fetchListed hpath hentries, readListed, hids, List.mapM_map]
    rfl
  · obtain ⟨content, hentry⟩ := (hmem id).mp hid
    constructor
    · rintro ⟨hbackslash, hpoints⟩
      have hempty := extensionOf?_recordName_iff.mp hentry.extension
      have hslash : '/' ∉ id.toList := fun hslash =>
        (isSingle_of_hasFile hbase hentry.entry).noSlash
          (by rw [toList_recordName]; exact List.mem_append_left _ hslash)
      rw [fetchById_of_isPlainId hpath (isPlainId_iff.mpr ⟨hempty, hslash, hbackslash, hpoints⟩),
        if_pos (FileTree.isFile_iff.mpr ⟨content, hentry.lookup hbase⟩)]
    · intro hodd
      refine fetchById_of_not_isPlainId hpath (Bool.eq_false_iff.mpr fun hplain => ?_)
      obtain ⟨-, -, hbackslash, hpoints⟩ := isPlainId_iff.mp hplain
      exact hodd.elim hbackslash hpoints

/-- A point inside an id does no harm. -/
theorem fetchById_of_collection_pointed :
    let content := Text.Utf8.encode "\x7b\x7d".toList
    let entries : Directory := Dict.empty.insert "a.b.json" (.file content)
    let files : FileTree :=
      { root := Dict.empty.insert "d" (.directory entries), wellNamed := by decide +kernel }
    let s : DirectoryStore := DirectoryStore.insert {} "r" ⟨"d"⟩
    (s.directory "r" = .ok ⟨"d"⟩ ∧ files.lookup ⟨"d"⟩ = .ok (.directory entries)) ∧
      s.fetchById files "r" "a.b" = .ok Dict.empty := by
  intro content entries files s
  have hpath : s.directory "r" = .ok ⟨"d"⟩ := rfl
  have hentries : files.lookup ⟨"d"⟩ = .ok (.directory entries) := by rfl
  have hentry : IsRecordEntry files ⟨"d"⟩ entries (recordName "a.b") content :=
    ⟨.own rfl, by decide +kernel, by decide +kernel⟩
  obtain ⟨ids, -, hmem, hread⟩ := fetchById_of_collection s files "r" hpath hentries
  have hplain := (hread "a.b" ((hmem "a.b").mpr ⟨content, hentry⟩)).1 ⟨by decide, by decide⟩
  refine ⟨⟨hpath, hentries⟩, hplain.trans ?_⟩
  exact (readRecord_eq_ok_iff (hentry.lookup (FileTree.lookup_base hentries))).mpr holds_empty

/-- A record of a collection is not found by its id, because of two points in the id. -/
theorem record_not_found_by_id :
    let content := Text.Utf8.encode "\x7b\x7d".toList
    let entries : Directory := Dict.empty.insert "a..b.json" (.file content)
    let files : FileTree :=
      { root := Dict.empty.insert "d" (.directory entries), wellNamed := by decide +kernel }
    let s : DirectoryStore := DirectoryStore.insert {} "r" ⟨"d"⟩
    s.directory "r" = .ok ⟨"d"⟩ ∧ files.lookup ⟨"d"⟩ = .ok (.directory entries) ∧
      HoldsAt files ⟨"d"⟩ entries (recordName "a..b") Dict.empty ∧
      (s.fetchCollection files "r").value = .ok [Dict.empty] ∧
      s.fetchById files "r" "a..b" = .error (.recordNotFound "r" "a..b") := by
  intro content entries files s
  have hpath : s.directory "r" = .ok ⟨"d"⟩ := rfl
  have hentries : files.lookup ⟨"d"⟩ = .ok (.directory entries) := by rfl
  have hholds : HoldsAt files ⟨"d"⟩ entries (recordName "a..b") Dict.empty :=
    ⟨content, .own rfl, holds_empty⟩
  have hbase := FileTree.lookup_base hentries
  have hfile : isRecordFile files ((Pathname.mk "d").join ⟨recordName "a..b"⟩) = true :=
    (isRecordFile_join_iff hbase (isSingle_recordName (by decide))).mpr
      ⟨content, .own rfl, by decide +kernel, by decide +kernel⟩
  have hnames : recordNames files ⟨"d"⟩ entries.keys = [recordName "a..b"] := by
    rw [recordNames, show entries.keys = [recordName "a..b"] from rfl,
      List.filter_singleton, hfile, cond_true, List.mergeSort_singleton]
  refine ⟨hpath, hentries, hholds, ?_, fetchById_of_not_isPlainId hpath (by decide)⟩
  rw [fetchCollection, value_fetchListed hpath hentries,
    readListed_eq_ok_iff hbase (.refl _), hnames]
  exact .cons hholds .nil

/-! ## Confinement -/

/-- What the directory at a pathname holds under a name. -/
def entryIn? (files : FileTree) (path : Pathname) (name : String) : Option FileNode :=
  match files.lookup path.base with
  | .ok (.directory entries) => entries.get? name
  | _ => none

theorem entryIn?_eq_some_iff {files : FileTree} {path : Pathname} {name : String}
    {node : FileNode} : entryIn? files path name = some node ↔
      ∃ entries, files.lookup path.base = .ok (.directory entries) ∧
        entries.get? name = some node := by
  rw [entryIn?]
  rcases files.lookup path.base with e | content | entries <;> simp

/-- In the directories at a pathname two trees hold the same file under a name, if any, and no
link. -/
structure SameFileIn (files other : FileTree) (path : Pathname) (name : String) : Prop where
  noLink : ∀ target, entryIn? files path name ≠ some (.link target)
  noLinkOther : ∀ target, entryIn? other path name ≠ some (.link target)
  same : ∀ content, entryIn? files path name = some (.file content) ↔
    entryIn? other path name = some (.file content)

/-- Where there is no link, a name leads to a file of the directory itself. -/
theorem lookup_join_eq_ok_file_iff_of_noLink {files : FileTree} {path : Pathname} {name : String}
    (h : Pathname.IsSingle name) (hlink : ∀ target, entryIn? files path name ≠ some (.link target))
    {content : List UInt8} :
    files.lookup (path.join ⟨name⟩) = .ok (.file content) ↔
      (path.join ⟨name⟩).text.utf8ByteSize < FileTree.pathLimit ∧
        entryIn? files path name = some (.file content) := by
  rw [files.lookup_join_eq_ok_file_iff h, entryIn?_eq_some_iff]
  refine and_congr_right fun _ => exists_congr fun entries => and_congr_right fun hentries => ?_
  constructor
  · rintro (hown | ⟨htarget, -⟩)
    · exact hown
    · exact absurd (entryIn?_eq_some_iff.mpr ⟨entries, hentries, htarget⟩) (hlink _)
  · exact .own

/-- Of all the files there are, a request by id sees only the one under the name of the id, if no
link bears that name. -/
theorem fetchById_congr {s : DirectoryStore} {files other : FileTree} {resource id : String}
    {path : Pathname} (hpath : s.directory resource = .ok path)
    (hsame : SameFileIn files other path (recordName id)) :
    s.fetchById files resource id = s.fetchById other resource id := by
  cases hid : isPlainId id with
  | false => rw [fetchById_of_not_isPlainId hpath hid, fetchById_of_not_isPlainId hpath hid]
  | true =>
    have hsingle := isSingle_recordName (isPlainId_iff.mp hid).2.1
    have hlookup : ∀ content, files.lookup (path.join ⟨recordName id⟩) = .ok (.file content) ↔
        other.lookup (path.join ⟨recordName id⟩) = .ok (.file content) := fun content => by
      rw [lookup_join_eq_ok_file_iff_of_noLink hsingle hsame.noLink,
        lookup_join_eq_ok_file_iff_of_noLink hsingle hsame.noLinkOther, hsame.same]
    have hfile : files.isFile (path.join ⟨recordName id⟩) =
        other.isFile (path.join ⟨recordName id⟩) := by
      rw [Bool.eq_iff_iff, FileTree.isFile_iff, FileTree.isFile_iff]
      exact exists_congr hlookup
    rw [fetchById_of_isPlainId hpath hid, fetchById_of_isPlainId hpath hid, hfile]
    split
    next hother =>
      obtain ⟨content, hcontent⟩ := FileTree.isFile_iff.mp hother
      exact readRecord_congr hcontent ((hlookup content).mpr hcontent)
    next => rfl

theorem mem_of_readListed {files : FileTree} {path : Pathname} {listed : List String}
    {records : List Record} (h : readListed files path listed = .ok records) {name : String}
    (hname : name ∈ recordNames files path listed) {record : Record}
    (hrecord : readRecord files (path.join ⟨name⟩) = .ok record) : record ∈ records := by
  obtain ⟨found, hfound, hread⟩ := exists_mem_of_mapM h hname
  rwa [Except.ok.inj (hrecord.symm.trans hread)]

theorem value_fetchCollection_of_empty (files : FileTree) {s : DirectoryStore} {resource : String}
    {path : Pathname} (hpath : s.directory resource = .ok path) (hempty : path.text = "") :
    (s.fetchCollection files resource).value = .error (.missingDirectory path) := by
  have hlookup : ∀ found, files.lookup path ≠ .ok found :=
    fun found hfound => (FileTree.lookup_eq_ok_iff.mp hfound).2.1 hempty
  simp only [fetchCollection, fetchListed, hpath]
  split
  next entries hentries => exact absurd hentries (hlookup _)
  next => rfl

/-- What a request by id reads, and what it depends on. A record is read by id only from what bears
the name of the id in the directory at the pathname of its resource: a file, or a link that leads to
one. Unless the pathname is empty, this is one of the files that a collection is made of. An empty
pathname stands for the working directory here, but there is no collection of it. Where no link
bears the name of the id, the file of that name is all that the answer depends on. -/
theorem fetchById_within_directory (s : DirectoryStore) (resource id : String) :
    (∀ files record, s.fetchById files resource id = .ok record →
      ∃ (path : Pathname) (entries : Directory) (content : List UInt8),
        s.directory resource = .ok path ∧ files.lookup path.base = .ok (.directory entries) ∧
        files.HasFile path entries (recordName id) content ∧ Holds content record ∧
        (path.text ≠ "" → files.lookup path = .ok (.directory entries) ∧
          recordName id ∈ recordNames files path entries.keys ∧
          (s.fetchCollection files resource).value = readListed files path entries.keys) ∧
        (path.text = "" →
          (s.fetchCollection files resource).value = .error (.missingDirectory path)) ∧
        ∀ records, (s.fetchCollection files resource).value = .ok records → record ∈ records) ∧
    ∀ files other,
      (∀ path, s.directory resource = .ok path → SameFileIn files other path (recordName id)) →
      s.fetchById files resource id = s.fetchById other resource id := by
  constructor
  · intro files record h
    obtain ⟨path, entries, content, hpath, -, hentries, hentry, hrecord⟩ :=
      fetchById_eq_ok_iff.mp h
    have hname : recordName id ∈ recordNames files path entries.keys :=
      (mem_recordNames_iff hentries (.refl _)).mpr ⟨content, hentry⟩
    have hread : readRecord files (path.join ⟨recordName id⟩) = .ok record :=
      (readRecord_eq_ok_iff (hentry.lookup hentries)).mpr hrecord
    have hcollection : path.text ≠ "" → files.lookup path = .ok (.directory entries) ∧
        recordName id ∈ recordNames files path entries.keys ∧
        (s.fetchCollection files resource).value = readListed files path entries.keys := by
      intro hne
      rw [Pathname.base_of_ne hne] at hentries
      exact ⟨hentries, hname, value_fetchListed hpath hentries _⟩
    refine ⟨path, entries, content, hpath, hentries, hentry.entry, hrecord, hcollection,
      value_fetchCollection_of_empty files hpath, fun records hrecords => ?_⟩
    by_cases hempty : path.text = ""
    · rw [value_fetchCollection_of_empty files hpath hempty] at hrecords
      cases hrecords
    · obtain ⟨-, -, hvalue⟩ := hcollection hempty
      exact mem_of_readListed (hvalue.symm.trans hrecords) hname hread
  · intro files other hsame
    cases hpath : s.directory resource with
    | error e => simp [fetchById, hpath]
    | ok path => exact fetchById_congr hpath (hsame path hpath)

/-- A file that bears the id of a point is read, and files elsewhere make no difference to it. -/
theorem fetchById_within_directory_point :
    let content := Text.Utf8.encode "\x7b\x7d".toList
    let entries : Directory := Dict.empty.insert "..json" (.file content)
    let root : Directory := Dict.empty.insert "d" (.directory entries)
    let files : FileTree := { root, wellNamed := by decide +kernel }
    let other : FileTree :=
      { root := root.insert "..json" (.file []), wellNamed := by decide +kernel }
    let s : DirectoryStore := DirectoryStore.insert {} "r" ⟨"d"⟩
    s.fetchById files "r" "." = .ok Dict.empty ∧
      (∃ path entries content, s.directory "r" = .ok path ∧
        files.HasFile path entries (recordName ".") content ∧ Holds content Dict.empty) ∧
      SameFileIn files other ⟨"d"⟩ (recordName ".") ∧
      s.fetchById other "r" "." = .ok Dict.empty := by
  intro content entries root files other s
  have hpath : s.directory "r" = .ok ⟨"d"⟩ := rfl
  have hentries : files.lookup (Pathname.mk "d").base = .ok (.directory entries) := by rfl
  have hfile : entryIn? files ⟨"d"⟩ (recordName ".") = some (.file content) := by rfl
  have hfile' : entryIn? other ⟨"d"⟩ (recordName ".") = some (.file content) := by rfl
  have hread : s.fetchById files "r" "." = .ok Dict.empty :=
    fetchById_of_hasFile hpath (by decide) hentries (.own rfl) (by decide +kernel) holds_empty
  have hsame : SameFileIn files other ⟨"d"⟩ (recordName ".") := by
    refine ⟨fun target h => ?_, fun target h => ?_, fun content => by rw [hfile, hfile']⟩
    · cases hfile.symm.trans h
    · cases hfile'.symm.trans h
  obtain ⟨hwithin, hcongr⟩ := fetchById_within_directory s "r" "."
  obtain ⟨path, entries', content', hpath', -, hhas, hholds, -⟩ := hwithin files Dict.empty hread
  refine ⟨hread, ⟨path, entries', content', hpath', hhas, hholds⟩, hsame, ?_⟩
  rw [← hcongr files other, hread]
  intro path hpath
  cases hpath
  exact hsame

/-- Three ways in which more than the directory of a resource decides a request by id. A resource
mapped to the empty pathname is looked up in the working directory, although it has no collection.
A link is followed, wherever it leads. A directory whose pathname goes through another one is found
only as long as that one exists. -/
theorem fetchById_beyond_directory :
    let content := Text.Utf8.encode "\x7b\x7d".toList
    let entries : Directory := Dict.empty.insert "a.json" (.file content)
    let linked : Directory := Dict.empty.insert "a.json" (.link ⟨"../x"⟩)
    (let files : FileTree := { root := entries, wellNamed := by decide +kernel }
      let s : DirectoryStore := DirectoryStore.insert {} "r" ⟨""⟩
      s.fetchById files "r" "a" = .ok Dict.empty ∧
        (s.fetchCollection files "r").value = .error (.missingDirectory ⟨""⟩)) ∧
    (let other : FileTree :=
        { root := Dict.empty.insert "d" (.directory linked), wellNamed := by decide +kernel }
      let files : FileTree :=
        { root := other.root.insert "x" (.file content), wellNamed := by decide +kernel }
      let s : DirectoryStore := DirectoryStore.insert {} "r" ⟨"d"⟩
      files.lookup ⟨"d"⟩ = .ok (.directory linked) ∧ other.lookup ⟨"d"⟩ = .ok (.directory linked) ∧
        s.fetchById files "r" "a" = .ok Dict.empty ∧
        s.fetchById other "r" "a" = .error (.recordNotFound "r" "a")) ∧
    (let other : FileTree :=
        { root := Dict.empty.insert "d" (.directory entries), wellNamed := by decide +kernel }
      let files : FileTree :=
        { root := other.root.insert "x" (.directory Dict.empty), wellNamed := by decide +kernel }
      let s : DirectoryStore := DirectoryStore.insert {} "r" ⟨"x/../d"⟩
      files.lookup ⟨"d"⟩ = .ok (.directory entries) ∧
        other.lookup ⟨"d"⟩ = .ok (.directory entries) ∧
        s.fetchById files "r" "a" = .ok Dict.empty ∧
        s.fetchById other "r" "a" = .error (.recordNotFound "r" "a")) := by
  intro content entries linked
  refine ⟨?_, ?_, ?_⟩
  · intro files s
    have hpath : s.directory "r" = .ok ⟨""⟩ := rfl
    have hentries : files.lookup (Pathname.mk "").base = .ok (.directory entries) := by rfl
    have hread : s.fetchById files "r" "a" = .ok Dict.empty :=
      fetchById_of_hasFile hpath (by decide) hentries (.own rfl) (by decide +kernel) holds_empty
    exact ⟨hread, value_fetchCollection_of_empty files hpath rfl⟩
  · intro other files s
    have hentries : files.lookup ⟨"d"⟩ = .ok (.directory linked) := by rfl
    have htarget : files.lookup ⟨"d/a.json"⟩ = .ok (.file content) := by rfl
    have hread : s.fetchById files "r" "a" = .ok Dict.empty :=
      fetchById_of_hasFile rfl (by decide) hentries (.linked rfl htarget) (by decide +kernel)
        holds_empty
    exact ⟨hentries, by rfl, hread, by rfl⟩
  · intro other files s
    have hentries : files.lookup ⟨"x/../d"⟩ = .ok (.directory entries) := by rfl
    have hread : s.fetchById files "r" "a" = .ok Dict.empty :=
      fetchById_of_hasFile rfl (by decide) hentries (.own rfl) (by decide +kernel) holds_empty
    exact ⟨by rfl, by rfl, hread, by rfl⟩

end RecordQuery.DirectoryStore
