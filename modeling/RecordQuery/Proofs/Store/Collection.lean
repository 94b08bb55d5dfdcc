import RecordQuery.Proofs.Store.FileTree
import RecordQuery.Proofs.Text.Utf8Order
import RecordQuery.Proofs.Traversal
import RecordQuery.Store.Directory

/-!
# Collections of directories

What a directory is listed as does not matter, only what it holds: its collection consists of the
records in its files with the extension of records, in the order of their names, or is refused
because of the first of them that holds none. A link counts as the file that it leads to. A file is
passed over, whatever it holds, if its pathname is too long to be looked up.
-/

namespace RecordQuery

theorem nodup_of_ascending {as : List String} (h : as.Pairwise (· < ·)) : as.Nodup := by
  have hne : ∀ {a b : String}, a < b → a ≠ b := fun hlt heq => String.lt_irrefl _ (heq ▸ hlt)
  exact h.imp hne

/-- Two ascending lists of the same texts are the same list. -/
theorem eq_of_ascending {as bs : List String} (has : as.Pairwise (· < ·))
    (hbs : bs.Pairwise (· < ·)) (h : ∀ a, a ∈ as ↔ a ∈ bs) : as = bs :=
  List.Perm.eq_of_pairwise (fun _ _ _ _ hab hba => absurd hba (String.lt_asymm hab)) has hbs
    ((List.perm_ext_iff_of_nodup (nodup_of_ascending has) (nodup_of_ascending hbs)).mpr h)

namespace FileTree

theorem isFile_iff {t : FileTree} {p : Pathname} :
    t.isFile p = true ↔ ∃ content, t.lookup p = .ok (.file content) := by
  unfold isFile
  split
  next content h => simp [h]
  next h =>
    constructor
    · intro hfalse
      cases hfalse
    · rintro ⟨content, hcontent⟩
      exact absurd hcontent (h content)

/-- A pathname that leads anywhere is its own base. -/
theorem lookup_base {t : FileTree} {p : Pathname} {found : Found} (h : t.lookup p = .ok found) :
    t.lookup p.base = .ok found := by
  rwa [Pathname.base_of_ne (lookup_eq_ok_iff.mp h).2.1]

theorem readText_of_lookup {t : FileTree} {p : Pathname} {content : List UInt8}
    (h : t.lookup p = .ok (.file content)) : t.readText p = decodeText content := by
  rw [readText, h]

end FileTree

namespace DirectoryStore

/-! ## Files that hold records -/

/-- A directory at a pathname has a file with the extension of records, and the pathname of the
file can be looked up. -/
structure IsRecordEntry (files : FileTree) (path : Pathname) (entries : Directory) (name : String)
    (content : List UInt8) : Prop where
  entry : files.HasFile path entries name content
  extension : Pathname.extensionOf? name = some recordExtension
  reachable : (path.join ⟨name⟩).text.utf8ByteSize < FileTree.pathLimit

/-- The bytes are the text of an object. -/
def Holds (content : List UInt8) (record : Record) : Prop :=
  ∃ text, FileTree.decodeText content = .ok text ∧ Json.ofText? text = some (.object record)

theorem holds_empty : Holds (Text.Utf8.encode "\x7b\x7d".toList) Dict.empty :=
  ⟨"\x7b\x7d", by decide +kernel, by rfl⟩

/-- What is wrong with the bytes of a file that hold no record. -/
inductive Fault (path : Pathname) (content : List UInt8) : StoreError → Prop
  | notText {cause : ReadError} (h : FileTree.decodeText content = .error cause) :
      Fault path content (.unreadable path cause)
  | notJson {text : String} (h : FileTree.decodeText content = .ok text)
      (hjson : Json.ofText? text = none) : Fault path content (.malformedRecord path)
  | notObject {text : String} {value : Json} (h : FileTree.decodeText content = .ok text)
      (hjson : Json.ofText? text = some value) (hvalue : ∀ record, value ≠ .object record) :
      Fault path content (.notAnObject path (describe value))

section

variable {files : FileTree} {path : Pathname} {entries : Directory}

theorem readRecord_eq_ok_iff {content : List UInt8} (h : files.lookup path = .ok (.file content))
    {record : Record} : readRecord files path = .ok record ↔ Holds content record := by
  rw [readRecord, FileTree.readText_of_lookup h, Holds]
  cases hcontent : FileTree.decodeText content with
  | error cause => simp
  | ok text =>
    rcases hjson : Json.ofText? text with _ | _ | _ | _ | _ | _ | _ <;> simp [hjson]

theorem readRecord_eq_error_iff {content : List UInt8}
    (h : files.lookup path = .ok (.file content)) {e : StoreError} :
    readRecord files path = .error e ↔ Fault path content e := by
  rw [readRecord, FileTree.readText_of_lookup h]
  constructor
  · intro he
    split at he
    next cause hcause =>
      obtain rfl := Except.error.inj he
      exact .notText hcause
    next text htext =>
      split at he
      next hjson =>
        obtain rfl := Except.error.inj he
        exact .notJson htext hjson
      next => cases he
      next value hother hjson =>
        obtain rfl := Except.error.inj he
        exact .notObject htext hjson hother
  · rintro (hcause | ⟨htext, hjson⟩ | @⟨text, value, htext, hjson, hvalue⟩)
    · rw [hcause]
    · simp only [htext, hjson]
    · simp only [htext, hjson]

/-- Two trees that have the same bytes at a pathname have the same record there. -/
theorem readRecord_congr {other : FileTree} {content : List UInt8}
    (h : files.lookup path = .ok (.file content))
    (hother : other.lookup path = .ok (.file content)) :
    readRecord other path = readRecord files path := by
  rw [readRecord, readRecord, FileTree.readText_of_lookup h, FileTree.readText_of_lookup hother]

section

variable (hentries : files.lookup path.base = .ok (.directory entries))
include hentries

/-- A single name joined to a pathname leads to the file of that name. -/
theorem lookup_join {name : String} (h : Pathname.IsSingle name) {content : List UInt8} :
    files.lookup (path.join ⟨name⟩) = .ok (.file content) ↔
      (path.join ⟨name⟩).text.utf8ByteSize < FileTree.pathLimit ∧
        files.HasFile path entries name content := by
  rw [files.lookup_join_eq_ok_file_iff h, hentries]
  simp

theorem isRecordFile_join_iff {name : String} (h : Pathname.IsSingle name) :
    isRecordFile files (path.join ⟨name⟩) = true ↔
      ∃ content, IsRecordEntry files path entries name content := by
  rw [isRecordFile, Bool.and_eq_true, beq_iff_eq, Pathname.extension?_join h, FileTree.isFile_iff]
  simp only [lookup_join hentries h]
  constructor
  · rintro ⟨⟨content, hshort, hentry⟩, hextension⟩
    exact ⟨content, hentry, hextension, hshort⟩
  · rintro ⟨content, hentry, hextension, hshort⟩
    exact ⟨⟨content, hshort, hentry⟩, hextension⟩

theorem isSingle_of_get? {name : String} {node : FileNode} (h : entries.get? name = some node) :
    Pathname.IsSingle name :=
  FileTree.isSingle_of_isName
    (FileTree.wellNamed_of_get? (FileTree.wellNamed_lookup hentries) h).1

theorem isSingle_of_hasFile {name : String} {content : List UInt8}
    (h : files.HasFile path entries name content) : Pathname.IsSingle name := by
  obtain ⟨node, hnode⟩ := h.exists_entry
  exact isSingle_of_get? hentries hnode

theorem IsRecordEntry.lookup {name : String} {content : List UInt8}
    (h : IsRecordEntry files path entries name content) :
    files.lookup (path.join ⟨name⟩) = .ok (.file content) :=
  (lookup_join hentries (isSingle_of_hasFile hentries h.entry)).mpr ⟨h.reachable, h.entry⟩

theorem IsRecordEntry.hasFile_iff {name : String} {content : List UInt8}
    (h : IsRecordEntry files path entries name content) {other : List UInt8} :
    files.HasFile path entries name other ↔ other = content := by
  constructor
  · intro hother
    have hlookup := (lookup_join hentries (isSingle_of_hasFile hentries hother)).mpr
      ⟨h.reachable, hother⟩
    cases (h.lookup hentries).symm.trans hlookup
    rfl
  · rintro rfl
    exact h.entry

theorem mem_recordNames_iff {listed : List String} (hlisted : listed.Perm entries.keys)
    {name : String} :
    name ∈ recordNames files path listed ↔
      ∃ content, IsRecordEntry files path entries name content := by
  rw [recordNames, List.mem_mergeSort, List.mem_filter, hlisted.mem_iff, Dict.mem_keys]
  constructor
  · rintro ⟨hname, hfile⟩
    obtain ⟨node, hnode⟩ := Option.isSome_iff_exists.mp hname
    exact (isRecordFile_join_iff hentries (isSingle_of_get? hentries hnode)).mp hfile
  · rintro ⟨content, hentry⟩
    exact ⟨Option.isSome_iff_exists.mpr hentry.entry.exists_entry,
      (isRecordFile_join_iff hentries (isSingle_of_hasFile hentries hentry.entry)).mpr
        ⟨content, hentry⟩⟩

end

/-- The names are sorted strictly, because a directory has no name twice. -/
theorem pairwise_recordNames {listed : List String} (hlisted : listed.Perm entries.keys) :
    (recordNames files path listed).Pairwise (· < ·) := by
  have hnodup : (recordNames files path listed).Pairwise (· ≠ ·) := by
    have hlisted := hlisted.nodup_iff.mpr (nodup_of_ascending (Dict.keys_pairwise entries))
    have hkept := hlisted.filter fun name => isRecordFile files (path.join ⟨name⟩)
    exact (List.mergeSort_perm _ _).nodup_iff.mpr hkept
  have hsorted : (recordNames files path listed).Pairwise (· ≤ ·) := by
    refine (List.pairwise_mergeSort ?_ ?_ _).imp of_decide_eq_true
    · intro a b c hab hbc
      exact decide_eq_true (String.le_trans (of_decide_eq_true hab) (of_decide_eq_true hbc))
    · intro a b
      simpa using String.le_total a b
  exact (hsorted.and hnodup).imp fun ⟨hle, hne⟩ => Std.lt_of_le_of_ne hle hne

end

/-! ## Reading a directory -/

/-- The directory has a file of this name with a record in it. -/
def HoldsAt (files : FileTree) (path : Pathname) (entries : Directory) (name : String)
    (record : Record) : Prop :=
  ∃ content, files.HasFile path entries name content ∧ Holds content record

/-- The directory has a file of this name with no record in it. -/
def FaultAt (files : FileTree) (path : Pathname) (entries : Directory) (name : String)
    (e : StoreError) : Prop :=
  ∃ content, files.HasFile path entries name content ∧ Fault (path.join ⟨name⟩) content e

section

variable {files : FileTree} {path : Pathname} {entries : Directory}
  (hentries : files.lookup path.base = .ok (.directory entries))
include hentries

theorem readRecord_join_eq_ok_iff {name : String} {content : List UInt8}
    (h : IsRecordEntry files path entries name content) {record : Record} :
    readRecord files (path.join ⟨name⟩) = .ok record ↔ HoldsAt files path entries name record := by
  simp only [readRecord_eq_ok_iff (h.lookup hentries), HoldsAt, h.hasFile_iff hentries,
    exists_eq_left]

theorem readRecord_join_eq_error_iff {name : String} {content : List UInt8}
    (h : IsRecordEntry files path entries name content) {e : StoreError} :
    readRecord files (path.join ⟨name⟩) = .error e ↔ FaultAt files path entries name e := by
  simp only [readRecord_eq_error_iff (h.lookup hentries), FaultAt, h.hasFile_iff hentries,
    exists_eq_left]

section

variable {listed : List String} (hlisted : listed.Perm entries.keys)
include hlisted

theorem readListed_eq_ok_iff {records : List Record} :
    readListed files path listed = .ok records ↔
      List.Forall₂ (HoldsAt files path entries) (recordNames files path listed) records := by
  rw [readListed, mapM_eq_ok_iff]
  refine forall₂_congr_of_mem fun name hname record => ?_
  obtain ⟨content, hentry⟩ := (mem_recordNames_iff hentries hlisted).mp hname
  exact readRecord_join_eq_ok_iff hentries hentry

theorem exists_readListed_eq_ok_iff :
    (∃ records, readListed files path listed = .ok records) ↔
      ∀ name ∈ recordNames files path listed, ∃ record, HoldsAt files path entries name record := by
  rw [readListed, exists_mapM_eq_ok_iff]
  refine forall₂_congr fun name hname => exists_congr fun record => ?_
  obtain ⟨content, hentry⟩ := (mem_recordNames_iff hentries hlisted).mp hname
  exact readRecord_join_eq_ok_iff hentries hentry

theorem readListed_eq_error_iff {e : StoreError} :
    readListed files path listed = .error e ↔
      ∃ before name after, recordNames files path listed = before ++ name :: after ∧
        (∀ b ∈ before, ∃ record, HoldsAt files path entries b record) ∧
        FaultAt files path entries name e := by
  rw [readListed, mapM_eq_error_iff]
  refine exists_congr fun before => exists_congr fun name => exists_congr fun after =>
    and_congr_right fun hnames => ?_
  have hentry : ∀ n ∈ before ++ name :: after,
      ∃ content, IsRecordEntry files path entries n content :=
    fun n hn => (mem_recordNames_iff hentries hlisted).mp (hnames ▸ hn)
  refine and_congr (forall₂_congr fun b hb => exists_congr fun record => ?_) ?_
  · obtain ⟨content, hb⟩ := hentry b (List.mem_append_left _ hb)
    exact readRecord_join_eq_ok_iff hentries hb
  · obtain ⟨content, hname⟩ := hentry name (List.mem_append_right _ List.mem_cons_self)
    exact readRecord_join_eq_error_iff hentries hname

end

/-- Two directories with the same record files are read alike, however they are listed. -/
theorem readListed_congr {other : FileTree} {entries' : Directory}
    (hentries' : other.lookup path.base = .ok (.directory entries'))
    (hsame : ∀ name content, IsRecordEntry other path entries' name content ↔
      IsRecordEntry files path entries name content)
    {listed listed' : List String} (hlisted : listed.Perm entries.keys)
    (hlisted' : listed'.Perm entries'.keys) :
    readListed other path listed' = readListed files path listed := by
  have hnames : recordNames other path listed' = recordNames files path listed :=
    eq_of_ascending (pairwise_recordNames hlisted') (pairwise_recordNames hlisted) fun name => by
      rw [mem_recordNames_iff hentries' hlisted', mem_recordNames_iff hentries hlisted]
      exact exists_congr (hsame name)
  rw [readListed, readListed, hnames]
  refine mapM_congr_of_mem fun name hname => ?_
  obtain ⟨content, hentry⟩ := (mem_recordNames_iff hentries hlisted).mp hname
  exact readRecord_congr (hentry.lookup hentries)
    (((hsame name content).mpr hentry).lookup hentries')

end

/-! ## Collections -/

section

variable {s : DirectoryStore} {files : FileTree} {resource : String} {path : Pathname}
  {entries : Directory} (hpath : s.directory resource = .ok path)
  (hentries : files.lookup path = .ok (.directory entries))
include hpath hentries

theorem value_fetchListed (list : Directory → List String) :
    (s.fetchListed list files resource).value = readListed files path (list entries) := by
  simp only [fetchListed, hpath, hentries]
  cases readListed files path (list entries) <;> rfl

/-- A collection and what is logged about it depend on the files read only. -/
theorem fetchListed_congr {other : FileTree} {entries' : Directory}
    (hentries' : other.lookup path = .ok (.directory entries'))
    {list list' : Directory → List String}
    (h : readListed other path (list' entries') = readListed files path (list entries)) :
    s.fetchListed list' other resource = s.fetchListed list files resource := by
  simp only [fetchListed, hpath, hentries, hentries', h]

end

/-- A collection in terms of its directory. The names of the files with the extension of records
whose pathnames can be looked up, in the order of their bytes, decide everything: however the
directory is listed, the collection has one record for each of these files if all of them hold
one, and otherwise it is refused with the fault of the first that holds none. Nothing else in the
directory makes a difference, except to where the links among them lead. -/
theorem fetchListed_of_directory (s : DirectoryStore) (files : FileTree) (resource : String)
    {path : Pathname} {entries : Directory} (hpath : s.directory resource = .ok path)
    (hentries : files.lookup path = .ok (.directory entries)) :
    ∃ names : List String,
      (names.map fun name => Text.Utf8.encode name.toList).Pairwise (· < ·) ∧
      (∀ name, name ∈ names ↔ ∃ content, IsRecordEntry files path entries name content) ∧
      (∀ list : Directory → List String, (list entries).Perm entries.keys →
        s.fetchListed list files resource = s.fetchCollection files resource) ∧
      ((∃ records, (s.fetchCollection files resource).value = .ok records) ↔
        ∀ name ∈ names, ∃ record, HoldsAt files path entries name record) ∧
      (∀ records, (s.fetchCollection files resource).value = .ok records ↔
        List.Forall₂ (HoldsAt files path entries) names records) ∧
      (∀ e, (s.fetchCollection files resource).value = .error e ↔
        ∃ before name after, names = before ++ name :: after ∧
          (∀ b ∈ before, ∃ record, HoldsAt files path entries b record) ∧
          FaultAt files path entries name e) ∧
      (∀ other entries', other.lookup path = .ok (.directory entries') →
        (∀ name content, IsRecordEntry other path entries' name content ↔
          IsRecordEntry files path entries name content) →
        s.fetchCollection other resource = s.fetchCollection files resource) := by
  have hkeys : entries.keys.Perm entries.keys := .refl _
  have hbase := FileTree.lookup_base hentries
  simp only [fetchCollection, value_fetchListed hpath hentries]
  refine ⟨recordNames files path entries.keys, ?_, fun name => mem_recordNames_iff hbase hkeys,
    fun list hlist => ?_, exists_readListed_eq_ok_iff hbase hkeys,
    fun records => readListed_eq_ok_iff hbase hkeys,
    fun e => readListed_eq_error_iff hbase hkeys, fun other entries' hentries' hsame => ?_⟩
  · exact List.pairwise_map.mpr ((pairwise_recordNames hkeys).imp fun hlt =>
      Text.Utf8.encode_lt_encode (String.lt_iff.mp hlt))
  · exact fetchListed_congr hpath hentries hentries
      (readListed_congr hbase hbase (fun _ _ => Iff.rfl) hkeys hlist)
  · exact fetchListed_congr hpath hentries hentries'
      (readListed_congr hbase (FileTree.lookup_base hentries') hsame hkeys (.refl _))

/-- Listing the entries backwards changes nothing, and a name that is all extension counts for
nothing. -/
theorem fetchListed_of_directory_backwards :
    let content := Text.Utf8.encode "\x7b\x7d".toList
    let entries : Directory := ((Dict.empty.insert "b.json" (.file [0xFF])).insert ".json"
      (.file content)).insert "a.b.json" (.file content)
    let files : FileTree :=
      { root := Dict.empty.insert "d" (.directory entries), wellNamed := by decide +kernel }
    let s : DirectoryStore := DirectoryStore.insert {} "r" ⟨"d/"⟩
    (s.directory "r" = .ok ⟨"d/"⟩ ∧ files.lookup ⟨"d/"⟩ = .ok (.directory entries)) ∧
      s.fetchListed (fun d => d.keys.reverse) files "r" = s.fetchCollection files "r" ∧
      ∃ names, "a.b.json" ∈ names ∧ ".json" ∉ names ∧
        ∀ records, (s.fetchCollection files "r").value = .ok records ↔
          List.Forall₂ (HoldsAt files ⟨"d/"⟩ entries) names records := by
  intro content entries files s
  have hpath : s.directory "r" = .ok ⟨"d/"⟩ := rfl
  have hentries : files.lookup ⟨"d/"⟩ = .ok (.directory entries) := by rfl
  obtain ⟨names, -, hnames, hlists, -, hok, -, -⟩ :=
    fetchListed_of_directory s files "r" hpath hentries
  refine ⟨⟨hpath, hentries⟩, hlists _ (List.reverse_perm _), names, ?_, ?_, hok⟩
  · refine (hnames _).mpr ⟨content, .own ?_, by decide +kernel, by decide +kernel⟩
    rw [Dict.get?_insert, if_pos rfl]
  · intro hname
    obtain ⟨-, -, hextension, -⟩ := (hnames _).mp hname
    exact absurd hextension (by decide +kernel)

/-- A file that holds a record is missing from the collection, because the pathname of its
directory is so long that the name cannot be looked up in it. -/
theorem collection_without_unreachable_file :
    let content := Text.Utf8.encode "\x7b\x7d".toList
    let entries : Directory := Dict.empty.insert "x.json" (.file content)
    let files : FileTree :=
      { root := Dict.empty.insert "d" (.directory entries), wellNamed := by decide +kernel }
    let path := (Pathname.mk "d").padded 2044
    let s : DirectoryStore := DirectoryStore.insert {} "r" path
    s.directory "r" = .ok path ∧ files.lookup path = .ok (.directory entries) ∧
      Pathname.extensionOf? "x.json" = some recordExtension ∧
      HoldsAt files path entries "x.json" Dict.empty ∧
      (s.fetchCollection files "r").value = .ok [] := by
  intro content entries files path s
  have hslash : (Pathname.mk "d").text.toList.getLast? ≠ some '/' := by decide
  obtain ⟨hsize, hempty, hlast⟩ := Pathname.padded_size (p := ⟨"d"⟩) (by decide) hslash 2044
  have hpath : s.directory "r" = .ok path := rfl
  have hd : files.lookup ⟨"d"⟩ = .ok (.directory entries) := by rfl
  have hentries : files.lookup path = .ok (.directory entries) :=
    FileTree.lookup_padded hd hslash (by decide)
  have hnone : recordNames files path entries.keys = [] := by
    refine List.eq_nil_iff_forall_not_mem.mpr fun name hname => ?_
    obtain ⟨content', hentry, -, hreachable⟩ :=
      (mem_recordNames_iff (FileTree.lookup_base hentries) (.refl _)).mp hname
    have hx : name = "x.json" := by
      obtain ⟨node, hnode⟩ := hentry.exists_entry
      by_contra hne
      rw [Dict.get?_insert, if_neg hne] at hnode
      cases hnode
    rw [hx, Pathname.text_join (by decide), Pathname.lead, if_neg (not_or.mpr ⟨hempty, hlast⟩),
      String.utf8ByteSize_append, String.utf8ByteSize_append, hsize] at hreachable
    exact absurd hreachable (by decide)
  refine ⟨hpath, hentries, by decide +kernel, ⟨content, .own rfl, holds_empty⟩, ?_⟩
  rw [fetchCollection, value_fetchListed hpath hentries, readListed, hnone]
  rfl

end DirectoryStore

end RecordQuery
