import RecordQuery.Dict.Lemmas
import RecordQuery.Proofs.Store.Pathname
import RecordQuery.Store.FileTree

/-!
# Looking up names in a directory

A pathname with a single name joined to it leads to the file that the directory at the pathname
holds under that name, as long as it is short enough. Names that are too long or hold a null
character need no such condition, because no directory of a tree holds them. Under the name of a
link there is the file that the link leads to, wherever that is.
-/

namespace RecordQuery.FileTree

open Pathname (IsSingle)

/-! ## Names in a tree -/

theorem isSingle_of_isName {name : String} (h : isName name = true) : IsSingle name := by
  simp only [isName, Bool.and_eq_true, Bool.not_eq_true', bne_iff_ne] at h
  obtain ⟨⟨⟨⟨hidle, hparent⟩, hslash⟩, -⟩, -⟩ := h
  exact ⟨by simpa using hslash, hidle, hparent⟩

theorem not_null_mem_of_isName {name : String} (h : isName name = true) :
    '\x00' ∉ name.toList := by
  simp only [isName, Bool.and_eq_true, Bool.not_eq_true'] at h
  simpa using h.1.2

theorem utf8ByteSize_le_of_isName {name : String} (h : isName name = true) :
    name.utf8ByteSize ≤ nameLimit := by
  simp only [isName, Bool.and_eq_true, decide_eq_true_eq] at h
  exact h.2

/-- What a well-named directory holds under a name is well named, and so is the name. -/
theorem wellNamed_of_get? {low : Option String} {entries : Dict.Entries FileNode low}
    (h : isWellNamed entries = true) {name : String} {node : FileNode}
    (hnode : entries.get? name = some node) :
    isName name = true ∧ nodeIsWellNamed node = true := by
  induction entries with
  | nil => cases hnode
  | cons key above value rest ih =>
    simp only [isWellNamed, Bool.and_eq_true] at h
    rw [Dict.Entries.get?] at hnode
    split at hnode
    next hkey =>
      obtain rfl := Option.some.inj hnode
      exact ⟨hkey ▸ h.1.1, h.1.2⟩
    next => exact ih h.2 hnode

section

variable {follow : Follow} {root current : Directory} {above : List Directory}
  {segments : List String} {entries : Directory}

/-- From well-named directories only such are reached, if that is so behind links. -/
theorem wellNamed_walkBy
    (hfollow : ∀ (current : Directory) (above : List Directory) (target : Pathname)
      (rest : List String), isWellNamed current = true → (∀ d ∈ above, isWellNamed d = true) →
      follow current above target rest = .ok (.directory entries) → isWellNamed entries = true)
    (hcurrent : isWellNamed current = true) (habove : ∀ d ∈ above, isWellNamed d = true)
    (h : walkBy follow current above segments = .ok (.directory entries)) :
    isWellNamed entries = true := by
  fun_induction walkBy follow current above segments with
  | case1 current above =>
    cases h
    exact hcurrent
  | case2 current above segment rest hidle ih => exact ih hcurrent habove h
  | case3 current rest hidle ih => exact ih hcurrent habove h
  | case4 current rest parent grand hidle ih =>
    rw [List.forall_mem_cons] at habove
    exact ih habove.1 habove.2 h
  | case5 | case6 | case8 | case9 => cases h
  | case7 current above segment rest hidle hparent hshort inner hinner ih =>
    have hwell := (wellNamed_of_get? hcurrent hinner).2
    rw [nodeIsWellNamed] at hwell
    exact ih hwell (List.forall_mem_cons.mpr ⟨hcurrent, habove⟩) h
  | case10 current above segment rest hidle hparent hshort target htarget =>
    exact hfollow current above target rest hcurrent habove h

theorem wellNamed_walk (hroot : isWellNamed root = true) (links : Nat)
    (hcurrent : isWellNamed current = true) (habove : ∀ d ∈ above, isWellNamed d = true)
    (h : walk root links current above segments = .ok (.directory entries)) :
    isWellNamed entries = true := by
  -- Every link followed leaves one less, and starts from the root or from where the link is.
  induction links generalizing current above segments with
  | zero =>
    refine wellNamed_walkBy (fun _ _ _ _ _ _ hstop => ?_) hcurrent habove h
    cases hstop
  | succ links ih =>
    refine wellNamed_walkBy (fun current above target rest hcurrent habove hlink => ?_)
      hcurrent habove h
    split at hlink
    next => exact ih hroot (List.forall_mem_nil _) hlink
    next => exact ih hcurrent habove hlink

theorem wellNamed_reach {t : FileTree} (h : t.reach segments = .ok (.directory entries)) :
    isWellNamed entries = true :=
  wellNamed_walk t.wellNamed linkLimit t.wellNamed (List.forall_mem_nil _) h

end

/-! ## The last segment -/

/-- What a name leads to from where the segments before it lead, unless it is that of the directory
above or of a link. -/
def enter (name : String) : Found → Except ReadError Found
  | .file _ => .error .notADirectory
  | .directory entries =>
    if Pathname.isIdle name then .ok (.directory entries)
    else if nameLimit < name.utf8ByteSize then .error .nameTooLong
    else
      match entries.get? name with
      | some (.file content) => .ok (.file content)
      | some (.directory inner) => .ok (.directory inner)
      | _ => .error .notFound

/-- The segments lead to a directory that holds a link under the name. -/
def MeetsLink (name : String) (found : Except ReadError Found) : Prop :=
  ∃ entries target, found = .ok (.directory entries) ∧ entries.get? name = some (.link target)

section

variable {name : String} (hname : name ≠ "..")
include hname

/-- The last segment is followed from what the segments before it lead to, if that is so behind
links and it is not itself one. -/
theorem walkBy_concat {follow : Follow}
    (hfollow : ∀ (current : Directory) (above : List Directory) (target : Pathname)
      (rest : List String), ¬ MeetsLink name (follow current above target rest) →
      follow current above target (rest ++ [name]) =
        (follow current above target rest).bind (enter name))
    (current : Directory) (above : List Directory) (segments : List String)
    (hlink : ¬ MeetsLink name (walkBy follow current above segments)) :
    walkBy follow current above (segments ++ [name]) =
      (walkBy follow current above segments).bind (enter name) := by
  -- Both sides take the same step, until the segments are used up or one of them fails.
  fun_induction walkBy follow current above segments with
  | case1 current above =>
    simp only [List.nil_append, walkBy, Except.bind, enter, hname, if_false, if_true]
    rcases hentry : current.get? name with _ | content | entries | target
    · rfl
    · rfl
    · rfl
    · exact absurd ⟨current, target, rfl, hentry⟩ hlink
  | case2 current above segment rest hidle ih =>
    simp only [List.cons_append, walkBy, hidle, if_true, ih hlink]
  | case3 current rest hidle ih =>
    simp only [List.cons_append, walkBy, hidle, Bool.false_eq_true, if_false, if_true, ih hlink]
  | case4 current rest parent grand hidle ih =>
    simp only [List.cons_append, walkBy, hidle, Bool.false_eq_true, if_false, if_true, ih hlink]
  | case5 current above segment rest hidle hparent hlong =>
    simp only [List.cons_append, walkBy, hidle, hparent, hlong, Bool.false_eq_true, if_false,
      if_true, Except.bind]
  | case6 current above segment rest hidle hparent hshort hentry =>
    simp only [List.cons_append, walkBy, hidle, hparent, hshort, hentry, Bool.false_eq_true,
      if_false, Except.bind]
  | case7 current above segment rest hidle hparent hshort entries hentry ih =>
    simp only [List.cons_append, walkBy, hidle, hparent, hshort, hentry, Bool.false_eq_true,
      if_false, ih hlink]
  | case8 current above segment hidle hparent hshort content hentry =>
    simp [walkBy, hidle, hparent, hshort, hentry, Except.bind, enter]
  | case9 current above segment rest hidle hparent hshort content hentry hrest =>
    simp [walkBy, hidle, hparent, hshort, hentry, Except.bind]
  | case10 current above segment rest hidle hparent hshort target hentry =>
    simp only [List.cons_append, walkBy, hidle, hparent, hshort, hentry, Bool.false_eq_true,
      if_false, hfollow current above target rest hlink]

theorem walk_concat (root : Directory) (links : Nat) (current : Directory)
    (above : List Directory) (segments : List String)
    (hlink : ¬ MeetsLink name (walk root links current above segments)) :
    walk root links current above (segments ++ [name]) =
      (walk root links current above segments).bind (enter name) := by
  induction links generalizing current above segments with
  | zero => exact walkBy_concat hname (fun _ _ _ _ _ => rfl) current above segments hlink
  | succ links ih =>
    refine walkBy_concat hname (fun current above target rest hlink => ?_) current above segments
      hlink
    simp only [← List.append_assoc]
    split at hlink
    next habsolute =>
      rw [if_pos habsolute, if_pos habsolute]
      exact ih root [] (target.segments ++ rest) hlink
    next habsolute =>
      rw [if_neg habsolute, if_neg habsolute]
      exact ih current above (target.segments ++ rest) hlink

theorem reach_concat {t : FileTree} {segments : List String}
    (hlink : ¬ MeetsLink name (t.reach segments)) :
    t.reach (segments ++ [name]) = (t.reach segments).bind (enter name) :=
  walk_concat hname t.root linkLimit t.root [] segments hlink

end

/-- Idle segments lead from a directory to itself. -/
theorem reach_concat_idle_eq_ok_iff {t : FileTree} {idle : String}
    (h : Pathname.isIdle idle = true) {segments : List String} {entries : Directory} :
    t.reach (segments ++ [idle]) = .ok (.directory entries) ↔
      t.reach segments = .ok (.directory entries) := by
  have hparent : idle ≠ ".." := by
    rintro rfl
    exact absurd h (by decide)
  have hlink : ¬ MeetsLink idle (t.reach segments) := by
    rintro ⟨inner, target, hinner, htarget⟩
    have hsingle := isSingle_of_isName (wellNamed_of_get? (wellNamed_reach hinner) htarget).1
    exact absurd h (Bool.eq_false_iff.mp hsingle.notIdle)
  rw [reach_concat hparent hlink]
  rcases t.reach segments with e | content | inner
  · rfl
  · simp [Except.bind, enter]
  · simp [Except.bind, enter, h]

theorem enter_eq_ok_file_iff {name : String} (h : IsSingle name) {found : Found}
    {content : List UInt8} :
    enter name found = .ok (.file content) ↔
      ∃ entries, found = .directory entries ∧ name.utf8ByteSize ≤ nameLimit ∧
        entries.get? name = some (.file content) := by
  cases found with
  | file content => simp [enter]
  | directory entries =>
    rw [enter, if_neg (Bool.eq_false_iff.mp h.notIdle)]
    by_cases hlong : nameLimit < name.utf8ByteSize
    · simp [hlong, Nat.not_le.mpr hlong]
    · rcases hget : entries.get? name with _ | content | inner | target <;>
        simp [hlong, Nat.not_lt.mp hlong, hget]

/-- Where a name leads to a file, it is that of the file or of a link. -/
theorem exists_entry_of_reach_concat {t : FileTree} {name : String} (h : IsSingle name)
    {segments : List String} {content : List UInt8}
    (hfile : t.reach (segments ++ [name]) = .ok (.file content)) :
    ∃ entries, t.reach segments = .ok (.directory entries) ∧
      (entries.get? name = some (.file content) ∨
        ∃ target, entries.get? name = some (.link target)) := by
  by_cases hlink : MeetsLink name (t.reach segments)
  · obtain ⟨entries, target, hentries, htarget⟩ := hlink
    exact ⟨entries, hentries, .inr ⟨target, htarget⟩⟩
  · rw [reach_concat h.notParent hlink] at hfile
    cases hfound : t.reach segments with
    | error e => simp [hfound, Except.bind] at hfile
    | ok found =>
      rw [hfound] at hfile
      obtain ⟨entries, rfl, -, hentry⟩ := (enter_eq_ok_file_iff h).mp hfile
      exact ⟨entries, rfl, .inl hentry⟩

theorem reach_concat_of_file {t : FileTree} {name : String} {segments : List String}
    {entries : Directory} (hentries : t.reach segments = .ok (.directory entries))
    {content : List UInt8} (hentry : entries.get? name = some (.file content)) :
    t.reach (segments ++ [name]) = .ok (.file content) := by
  have hname := (wellNamed_of_get? (wellNamed_reach hentries) hentry).1
  have hsingle := isSingle_of_isName hname
  have hlink : ¬ MeetsLink name (t.reach segments) := by
    rintro ⟨inner, target, hinner, htarget⟩
    obtain rfl : entries = inner := by
      rw [hentries] at hinner
      cases hinner
      rfl
    cases hentry.symm.trans htarget
  rw [reach_concat hsingle.notParent hlink, hentries]
  exact (enter_eq_ok_file_iff hsingle).mpr
    ⟨entries, rfl, utf8ByteSize_le_of_isName hname, hentry⟩

/-! ## Joined names -/

/-- The segments that lead from the root to a pathname. -/
def route (t : FileTree) (p : Pathname) : List String :=
  if p.isAbsolute then p.segments else t.workingDirectory ++ p.segments

theorem lookup_eq_ok_iff {t : FileTree} {p : Pathname} {found : Found} :
    t.lookup p = .ok found ↔ '\x00' ∉ p.text.toList ∧ p.text ≠ "" ∧
      p.text.utf8ByteSize < pathLimit ∧ t.reach (t.route p) = .ok found := by
  rw [lookup, route]
  by_cases hnull : '\x00' ∈ p.text.toList
  · simp [hnull]
  · by_cases hempty : p.text = ""
    · simp [hempty]
    · by_cases hlong : pathLimit ≤ p.text.utf8ByteSize
      · simp [hnull, hempty, hlong, Nat.not_lt.mpr hlong]
      · simp [hnull, hempty, hlong, Nat.not_le.mp hlong]

theorem wellNamed_lookup {t : FileTree} {p : Pathname} {entries : Directory}
    (h : t.lookup p = .ok (.directory entries)) : isWellNamed entries = true :=
  wellNamed_reach (lookup_eq_ok_iff.mp h).2.2.2

/-- A joined name is followed from the directory at the base. -/
theorem route_join (t : FileTree) {p : Pathname} {name : String} (h : '/' ∉ name.toList) :
    ∃ above, t.route (p.join ⟨name⟩) = above ++ [name] ∧
      ∀ entries : Directory, t.reach above = .ok (.directory entries) ↔
        t.reach (t.route p.base) = .ok (.directory entries) := by
  obtain ⟨above, hjoin, hbase⟩ := Pathname.segments_join (p := p) h
  obtain ⟨start, hstart⟩ : ∃ start, ∀ q : Pathname, q.isAbsolute = p.base.isAbsolute →
      t.route q = start ++ q.segments := by
    unfold route
    cases p.base.isAbsolute with
    | true => exact ⟨[], fun q hq => by rw [hq]; rfl⟩
    | false => exact ⟨t.workingDirectory, fun q hq => by rw [hq]; rfl⟩
  refine ⟨start ++ above, ?_, fun entries => ?_⟩
  · rw [hstart _ (Pathname.isAbsolute_join h), hjoin, List.append_assoc]
  · rw [hstart _ rfl]
    rcases hbase with hbase | ⟨idle, hidle, hbase⟩
    · rw [hbase]
    · rw [hbase, ← List.append_assoc, reach_concat_idle_eq_ok_iff hidle]

/-- The directory at a pathname has a file with these bytes under a name: a file of its own, or a
link through which the name leads to one. -/
inductive HasFile (t : FileTree) (p : Pathname) (entries : Directory) (name : String)
    (content : List UInt8) : Prop
  | own (h : entries.get? name = some (.file content))
  | linked {target : Pathname} (h : entries.get? name = some (.link target))
      (hlookup : t.lookup (p.join ⟨name⟩) = .ok (.file content))

theorem HasFile.exists_entry {t : FileTree} {p : Pathname} {entries : Directory} {name : String}
    {content : List UInt8} (h : t.HasFile p entries name content) :
    ∃ node, entries.get? name = some node := by
  cases h with
  | own h => exact ⟨_, h⟩
  | linked h => exact ⟨_, h⟩

/-- A single name joined to a pathname leads to the file that the directory at its base has under
it, if the pathname is not too long. -/
theorem lookup_join_eq_ok_file_iff (t : FileTree) {p : Pathname} {name : String}
    (h : IsSingle name) {content : List UInt8} :
    t.lookup (p.join ⟨name⟩) = .ok (.file content) ↔
      (p.join ⟨name⟩).text.utf8ByteSize < pathLimit ∧
        ∃ entries, t.lookup p.base = .ok (.directory entries) ∧
          t.HasFile p entries name content := by
  have hnull : '\x00' ∈ (p.join ⟨name⟩).text.toList ↔
      '\x00' ∈ p.base.text.toList ∨ '\x00' ∈ name.toList :=
    Pathname.mem_join_iff h.noSlash (by decide) (by decide)
  have hsize := Pathname.utf8ByteSize_base_le_join (p := p) h.noSlash h.ne_empty
  obtain ⟨above, hroute, hwalk⟩ := t.route_join (p := p) h.noSlash
  -- What the tree's names guarantee about the entry's name is all that the pathname adds to it.
  constructor
  · intro hlookup
    obtain ⟨hnull', -, hshort, hreach⟩ := lookup_eq_ok_iff.mp hlookup
    rw [hnull, not_or] at hnull'
    rw [hroute] at hreach
    obtain ⟨entries, hentries, hentry⟩ := exists_entry_of_reach_concat h hreach
    refine ⟨hshort, entries, lookup_eq_ok_iff.mpr ⟨hnull'.1, p.base_ne_empty,
      Nat.lt_of_le_of_lt hsize hshort, (hwalk entries).mp hentries⟩, ?_⟩
    rcases hentry with hown | ⟨target, hlink⟩
    · exact .own hown
    · exact .linked hlink hlookup
  · rintro ⟨hshort, entries, hbase, hown | ⟨-, hlookup⟩⟩
    · obtain ⟨hnull', -, -, hentries⟩ := lookup_eq_ok_iff.mp hbase
      have hname := (wellNamed_of_get? (wellNamed_lookup hbase) hown).1
      refine lookup_eq_ok_iff.mpr ⟨?_, Pathname.join_ne_empty h.noSlash h.ne_empty, hshort, ?_⟩
      · rw [hnull, not_or]
        exact ⟨hnull', not_null_mem_of_isName hname⟩
      · rw [hroute]
        exact reach_concat_of_file ((hwalk entries).mpr hentries) hown
    · exact hlookup

theorem lookup_join_idle {t : FileTree} {p : Pathname} {entries : Directory}
    (h : t.lookup p = .ok (.directory entries))
    (hshort : (p.join ⟨"."⟩).text.utf8ByteSize < pathLimit) :
    t.lookup (p.join ⟨"."⟩) = .ok (.directory entries) := by
  have hpoint : '/' ∉ ".".toList := by decide
  obtain ⟨above, hroute, hwalk⟩ := t.route_join (p := p) hpoint
  obtain ⟨hnull, hempty, -, hp⟩ := lookup_eq_ok_iff.mp h
  rw [Pathname.base_of_ne hempty] at hwalk
  have hnull' : '\x00' ∉ (p.join ⟨"."⟩).text.toList := by
    rw [Pathname.mem_join_iff hpoint (by decide) (by decide), Pathname.base_of_ne hempty]
    exact not_or.mpr ⟨hnull, by decide⟩
  refine lookup_eq_ok_iff.mpr ⟨hnull', Pathname.join_ne_empty hpoint (by decide), hshort, ?_⟩
  rw [hroute, reach_concat_idle_eq_ok_iff rfl]
  exact (hwalk entries).mpr hp

/-- Idle segments lead to the same directory as long as there are not too many. -/
theorem lookup_padded {t : FileTree} {p : Pathname} {entries : Directory}
    (h : t.lookup p = .ok (.directory entries)) (hslash : p.text.toList.getLast? ≠ some '/')
    {n : Nat} (hshort : p.text.utf8ByteSize + 2 * n < pathLimit) :
    t.lookup (p.padded n) = .ok (.directory entries) := by
  have hempty := (lookup_eq_ok_iff.mp h).2.1
  induction n with
  | zero => exact h
  | succ n ih =>
    refine lookup_join_idle (ih (by omega)) ?_
    rw [← Pathname.padded, (Pathname.padded_size hempty hslash (n + 1)).1]
    exact hshort

end RecordQuery.FileTree
