import Mathlib.Data.List.TakeWhile
import RecordQuery.Proofs.Text.Pieces
import RecordQuery.Store.Pathname

/-!
# Joining pathnames

Joining puts what leads there in front of a relative pathname and leaves an absolute one alone, so
joining twice is joining to the joined base. A name joined to a pathname becomes its last segment.
The segments before it are those of the pathname, or of the working directory if the pathname is
empty, so the name is looked up in the directory that these lead to.
-/

namespace RecordQuery.Pathname

/-- What joining puts in front of a relative pathname. -/
def lead (p : Pathname) : String :=
  if p.text = "" ∨ p.text.toList.getLast? = some '/' then p.text else p.text ++ "/"

/-! ## Joining any pathname -/

theorem join_of_isAbsolute {p : Pathname} (h : p.isAbsolute = true) (base : Pathname) :
    base.join p = p := if_pos h

theorem join_of_not_isAbsolute {p : Pathname} (h : p.isAbsolute = false) (base : Pathname) :
    base.join p = ⟨base.lead ++ p.text⟩ := by
  rw [join, if_neg (Bool.eq_false_iff.mp h), lead]
  split <;> rfl

theorem isAbsolute_of_empty {p : Pathname} (h : p.text = "") : p.isAbsolute = false := by
  rw [isAbsolute, h]
  rfl

/-- A lead is empty or ends in a slash, so nothing has to be put between it and what follows. -/
theorem lead_lead (p : Pathname) : (Pathname.mk p.lead).lead = p.lead := by
  refine if_pos ?_
  unfold lead
  split
  next h => exact h
  next =>
    right
    rw [String.toList_append, show "/".toList = ['/'] from rfl, List.getLast?_concat]

theorem lead_append (p : Pathname) {text : String} (h : text ≠ "") :
    (Pathname.mk (p.lead ++ text)).lead = p.lead ++ (Pathname.mk text).lead := by
  have hne : text.toList ≠ [] := fun he => h (String.toList_eq_nil_iff.mp he)
  have hempty : p.lead ++ text ≠ "" := fun he => h (String.append_eq_empty_iff.mp he).2
  have hlast : (p.lead ++ text).toList.getLast? = text.toList.getLast? := by
    rw [String.toList_append, List.getLast?_append, Option.or_of_isSome (by simpa using hne)]
  simp only [lead.eq_def ⟨p.lead ++ text⟩, lead.eq_def ⟨text⟩, hlast, hempty, h, false_or]
  split
  next => rfl
  next => exact String.append_assoc

/-- A pathname is absolute by its first character, which is that of its lead. -/
theorem isAbsolute_lead_append {p q : Pathname} (hq : q.isAbsolute = false) :
    (Pathname.mk (p.lead ++ q.text)).isAbsolute = p.isAbsolute := by
  by_cases hempty : p.text = ""
  · rw [lead, if_pos (.inl hempty), hempty, String.empty_append, isAbsolute_of_empty hempty]
    exact hq
  · obtain ⟨c, cs, hcs⟩ := List.exists_cons_of_ne_nil fun he =>
      hempty (String.toList_eq_nil_iff.mp he)
    rw [isAbsolute, isAbsolute, lead, String.toList_append]
    split <;> simp [hcs]

/-- To join to a base and then to an outer one is to join to the base as seen from the outer one. -/
theorem join_join (outer inner p : Pathname) :
    outer.join (inner.join p) = (outer.join inner).join p := by
  cases hp : p.isAbsolute with
  | true => rw [join_of_isAbsolute hp, join_of_isAbsolute hp, join_of_isAbsolute hp]
  | false =>
    rw [join_of_not_isAbsolute hp, join_of_not_isAbsolute hp]
    have hjoin := isAbsolute_lead_append (p := inner) hp
    cases hinner : inner.isAbsolute with
    | true => rw [join_of_isAbsolute hinner, join_of_isAbsolute (hjoin.trans hinner)]
    | false =>
      rw [join_of_not_isAbsolute hinner, join_of_not_isAbsolute (hjoin.trans hinner)]
      by_cases hempty : inner.text = ""
      · have hlead : inner.lead = "" := by rw [lead, if_pos (.inl hempty), hempty]
        rw [hempty, hlead, String.append_empty, lead_lead, String.empty_append]
      · rw [lead_append outer hempty, String.append_assoc]

/-! ## Joining a name -/

/-- The pathname of the directory in which a name joined to `p` is looked up. -/
def base (p : Pathname) : Pathname := if p.text = "" then ⟨"."⟩ else p

theorem base_of_ne {p : Pathname} (h : p.text ≠ "") : p.base = p := if_neg h

theorem base_ne_empty (p : Pathname) : p.base.text ≠ "" := by
  unfold base
  split
  next => exact of_decide_eq_false rfl
  next h => exact h

theorem isAbsolute_base (p : Pathname) : p.base.isAbsolute = p.isAbsolute := by
  unfold base
  split
  next h => exact (isAbsolute_of_empty h).symm
  next => rfl

section

variable {p : Pathname} {name : String} (h : '/' ∉ name.toList)
include h

theorem not_isAbsolute : (Pathname.mk name).isAbsolute = false :=
  decide_eq_false fun hhead => h (List.mem_of_mem_head? hhead)

theorem text_join : (p.join ⟨name⟩).text = p.lead ++ name := by
  rw [join_of_not_isAbsolute (not_isAbsolute h)]

/-- The last segment is the name, and what stands before it leads to the base. -/
theorem segments_join : ∃ above, (p.join ⟨name⟩).segments = above ++ [name] ∧
    (p.base.segments = above ∨
      ∃ idle, isIdle idle = true ∧ p.base.segments = above ++ [idle]) := by
  have hname : name.toList.splitOn '/' = [name.toList] := List.splitOn_eq_singleton h
  rw [segments, text_join h, base, lead]
  by_cases hempty : p.text = ""
  · refine ⟨[], ?_, .inr ⟨".", rfl, ?_⟩⟩
    · rw [if_pos (.inl hempty), hempty, String.empty_append, hname]
      simp
    · rw [if_pos hempty]
      decide
  · rw [if_neg hempty]
    by_cases hslash : p.text.toList.getLast? = some '/'
    · obtain ⟨cs, hcs⟩ := List.getLast?_eq_some_iff.mp hslash
      refine ⟨(cs.splitOn '/').map String.ofList, ?_, .inr ⟨"", rfl, ?_⟩⟩
      · rw [if_pos (.inr hslash), String.toList_append, hcs, List.append_assoc,
          List.singleton_append, List.splitOn_append_cons_self, hname]
        simp
      · rw [segments, hcs, List.splitOn_append_cons_self]
        simp
    · refine ⟨p.segments, ?_, .inl rfl⟩
      have hlead : (p.text ++ "/").toList ++ name.toList = p.text.toList ++ '/' :: name.toList := by
        simp
      rw [if_neg (not_or.mpr ⟨hempty, hslash⟩), String.toList_append, hlead,
        List.splitOn_append_cons_self, hname]
      simp [segments]

theorem isAbsolute_join : (p.join ⟨name⟩).isAbsolute = p.base.isAbsolute := by
  have hname := not_isAbsolute h
  rw [join_of_not_isAbsolute hname, isAbsolute_lead_append hname, isAbsolute_base]

theorem mem_join_iff {c : Char} (hslash : c ≠ '/') (hpoint : c ≠ '.') :
    c ∈ (p.join ⟨name⟩).text.toList ↔ c ∈ p.base.text.toList ∨ c ∈ name.toList := by
  rw [text_join h, String.toList_append, List.mem_append, base, lead]
  by_cases hempty : p.text = ""
  · simp [hempty, hpoint]
  · rw [if_neg hempty]
    split <;> simp [hslash]

section

variable (hname : name ≠ "")
include hname

theorem join_ne_empty : (p.join ⟨name⟩).text ≠ "" := by
  rw [text_join h]
  exact fun he => hname (String.append_eq_empty_iff.mp he).2

theorem utf8ByteSize_base_le_join :
    p.base.text.utf8ByteSize ≤ (p.join ⟨name⟩).text.utf8ByteSize := by
  rw [text_join h, String.utf8ByteSize_append, base, lead]
  by_cases hempty : p.text = ""
  · have hsize : name.utf8ByteSize ≠ 0 := fun hzero =>
      hname (String.utf8ByteSize_eq_zero_iff.mp hzero)
    rw [if_pos hempty, show ".".utf8ByteSize = 1 from rfl]
    omega
  · rw [if_neg hempty]
    split
    next => exact Nat.le_add_right _ _
    next =>
      rw [String.utf8ByteSize_append]
      omega

end

end

/-- A name that leads to an entry of a directory and nowhere else. -/
structure IsSingle (name : String) : Prop where
  noSlash : '/' ∉ name.toList
  notIdle : isIdle name = false
  notParent : name ≠ ".."

theorem IsSingle.ne_empty {name : String} (h : IsSingle name) : name ≠ "" := by
  rintro rfl
  exact absurd h.notIdle (by decide)

theorem extension?_join {p : Pathname} {name : String} (h : IsSingle name) :
    (p.join ⟨name⟩).extension? = extensionOf? name := by
  obtain ⟨above, hsegments, -⟩ := segments_join (p := p) h.noSlash
  have hkept : dropIdleEnd (above ++ [name]) = above ++ [name] := by
    rw [dropIdleEnd, List.reverse_append, List.reverse_singleton, List.singleton_append,
      List.dropWhile_cons_of_neg (Bool.eq_false_iff.mp h.notIdle), List.reverse_cons,
      List.reverse_reverse]
  rw [extension?, fileName?, hsegments, hkept, List.getLast?_concat,
    Option.filter_some_pos (by simpa using h.notParent), Option.bind_some]

theorem extensionOf?_of_not_mem {name : String} (h : '.' ∉ name.toList) :
    extensionOf? name = none := by
  have hdrop : name.toList.reverse.dropWhile (fun c => decide (c ≠ '.')) = [] :=
    List.dropWhile_eq_nil_iff.mpr fun c hc =>
      decide_eq_true fun hpoint => h (hpoint ▸ List.mem_reverse.mp hc)
  rw [extensionOf?, hdrop]

/-- The extension stands behind the last point, if something comes before that point. -/
theorem extensionOf?_append {before after : List Char} (h : '.' ∉ after) :
    extensionOf? (String.ofList (before ++ '.' :: after)) =
      if before = [] then none else some (String.ofList after) := by
  have hne : (fun c : Char => decide (c ≠ '.')) = (· != '.') := by
    funext c
    rw [Bool.eq_iff_iff, decide_eq_true_iff, bne_iff_ne]
  have hreverse : (before ++ '.' :: after).reverse = after.reverse ++ '.' :: before.reverse := by
    simp
  have hafter : '.' ∉ after.reverse := fun hmem => h (List.mem_reverse.mp hmem)
  rw [extensionOf?, hne, String.toList_ofList, hreverse, Text.dropWhile_ne_append hafter,
    Text.takeWhile_ne_append hafter, List.reverse_reverse]
  rcases List.eq_nil_or_concat before with rfl | ⟨first, last, rfl⟩
  · rfl
  · simp

theorem extensionOf?_eq_some_iff {name extension : String} :
    extensionOf? name = some extension ↔
      '.' ∉ extension.toList ∧ ∃ stem, stem ≠ "" ∧ name = stem ++ "." ++ extension := by
  constructor
  · intro h
    have hpoint : '.' ∈ name.toList.reverse := by
      by_contra hnone
      rw [extensionOf?_of_not_mem fun hmem => hnone (List.mem_reverse.mpr hmem)] at h
      cases h
    obtain ⟨after, before, hsplit, hafter⟩ := List.eq_append_cons_of_mem hpoint
    have hname : name = String.ofList (before.reverse ++ '.' :: after.reverse) := by
      rw [← String.toList_inj, String.toList_ofList, ← List.reverse_inj, hsplit]
      simp
    have hafter : '.' ∉ after.reverse := fun hmem => hafter (List.mem_reverse.mp hmem)
    rw [hname, extensionOf?_append hafter] at h
    split at h
    next => cases h
    next hbefore =>
      obtain rfl := Option.some.inj h
      refine ⟨by rwa [String.toList_ofList], String.ofList before.reverse, ?_, ?_⟩
      · simpa using hbefore
      · rw [hname, ← String.toList_inj]
        simp
  · rintro ⟨hextension, stem, hstem, rfl⟩
    have hname : stem ++ "." ++ extension =
        String.ofList (stem.toList ++ '.' :: extension.toList) := by
      rw [← String.toList_inj]
      simp
    rw [hname, extensionOf?_append hextension, if_neg, String.ofList_toList]
    simpa using hstem

/-- The pathname with a number of idle segments behind it. -/
def padded (p : Pathname) : Nat → Pathname
  | 0 => p
  | n + 1 => (p.padded n).join ⟨"."⟩

/-- Each idle segment takes two bytes. -/
theorem padded_size {p : Pathname} (hempty : p.text ≠ "")
    (hslash : p.text.toList.getLast? ≠ some '/') (n : Nat) :
    (p.padded n).text.utf8ByteSize = p.text.utf8ByteSize + 2 * n ∧
      (p.padded n).text ≠ "" ∧ (p.padded n).text.toList.getLast? ≠ some '/' := by
  have hpoint : '/' ∉ ".".toList := by decide
  induction n with
  | zero => exact ⟨rfl, hempty, hslash⟩
  | succ n ih =>
    obtain ⟨hsize, hempty, hslash⟩ := ih
    have htext : (p.padded (n + 1)).text = (p.padded n).text ++ "/" ++ "." := by
      rw [padded, text_join hpoint, lead, if_neg (not_or.mpr ⟨hempty, hslash⟩)]
    refine ⟨?_, join_ne_empty hpoint (by decide), ?_⟩
    · rw [htext, String.utf8ByteSize_append, String.utf8ByteSize_append, hsize]
      rfl
    · rw [htext, String.toList_append, show ".".toList = ['.'] from rfl, List.getLast?_concat]
      decide

end RecordQuery.Pathname
