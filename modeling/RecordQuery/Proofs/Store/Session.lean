import RecordQuery.Dict.Lemmas
import RecordQuery.Store.Memory

/-!
# Sessions over collections in memory

What a session replies about a resource depends on the changes it made to that resource and on
nothing else: not on what was asked before, whether or not that failed, and not on changes of
other resources. The collection of a resource is what was last inserted, followed by what was
pushed since.
-/

namespace RecordQuery.MemoryStore

/-! ## What commands have to do with a resource -/

namespace Command

/-- The command changes the collection of a resource. -/
def writes (resource : String) : Command → Bool
  | .insert r _ => r = resource
  | .push r _ => r = resource
  | _ => false

/-- The command replaces the collection of a resource. -/
def inserts (resource : String) : Command → Bool
  | .insert r _ => r = resource
  | _ => false

/-- The record that the command appends to the collection of a resource. -/
def pushed? (resource : String) : Command → Option Record
  | .push r record => if r = resource then some record else none
  | _ => none

/-- The resource whose records the command asks for. -/
def asked? : Command → Option String
  | .request (.fetch r) => some r
  | .request (.byId r _) => some r
  | .request (.query r _) => some r
  | .request (.queryText r _) => some r
  | _ => none

/-- What the command makes of the collection of a resource. -/
def effect (resource : String) (collection : Option (List Record)) : Command → Option (List Record)
  | .insert r records => if r = resource then some records else collection
  | .push r record =>
    if r = resource then some (collection.getD [] ++ [record]) else collection
  | _ => collection

variable {resource : String}

theorem effect_of_not_writes {c : Command} (h : c.writes resource = false)
    (collection : Option (List Record)) : effect resource collection c = collection := by
  cases c with
  | insert r records => exact if_neg (of_decide_eq_false h)
  | push r record => exact if_neg (of_decide_eq_false h)
  | resources => rfl
  | request request => rfl

theorem pushed?_of_not_writes {c : Command} (h : c.writes resource = false) :
    c.pushed? resource = none := by
  cases c with
  | push r record => exact if_neg (of_decide_eq_false h)
  | insert r records => rfl
  | resources => rfl
  | request request => rfl

/-- A command that changes a collection without replacing it appends one record. -/
theorem exists_of_writes {c : Command} (hwrites : c.writes resource = true)
    (hinserts : c.inserts resource = false) :
    ∃ record, c.pushed? resource = some record ∧
      ∀ collection, effect resource collection c = some (collection.getD [] ++ [record]) := by
  cases c with
  | insert r records => exact absurd hwrites (Bool.eq_false_iff.mp hinserts)
  | push r record =>
    have hr : r = resource := of_decide_eq_true hwrites
    exact ⟨record, if_pos hr, fun collection => if_pos hr⟩
  | resources => cases hwrites
  | request request => cases hwrites

theorem isSome_effect (c : Command) (collection : Option (List Record)) :
    (effect resource collection c).isSome = (collection.isSome || c.writes resource) := by
  cases hwrites : c.writes resource with
  | false => rw [effect_of_not_writes hwrites, Bool.or_false]
  | true =>
    rw [Bool.or_true]
    cases c with
    | insert r records => exact congrArg Option.isSome (if_pos (of_decide_eq_true hwrites))
    | push r record => exact congrArg Option.isSome (if_pos (of_decide_eq_true hwrites))
    | resources => cases hwrites
    | request request => cases hwrites

end Command

/-! ## Collections after a run -/

variable {format : QueryFormat} {resource : String}

/-- One command has its effect on every collection. -/
theorem get?_step (m : MemoryStore) (c : Command) :
    (m.step format c).1.collections.get? resource =
      c.effect resource (m.collections.get? resource) := by
  cases c with
  | insert r records =>
    simp only [step, insert, Dict.get?_insert, Command.effect, eq_comm]
  | push r record =>
    simp only [step, push, insert, Dict.get?_insert, Command.effect]
    by_cases h : r = resource
    · rw [if_pos h.symm, if_pos h, h]
    · rw [if_neg (Ne.symm h), if_neg h]
  | resources => rfl
  | request request => rfl

/-- A run has the effects of its commands, one after the other. -/
theorem get?_run (m : MemoryStore) (cs : List Command) :
    (run format m cs).1.collections.get? resource =
      cs.foldl (Command.effect resource) (m.collections.get? resource) := by
  induction cs generalizing m with
  | nil => rfl
  | cons c cs ih =>
    have hstep := @get?_step format resource m c
    rw [run, List.foldl_cons, ← hstep, ← ih]

theorem run_append (m : MemoryStore) (cs ds : List Command) :
    run format m (cs ++ ds) =
      ((run format (run format m cs).1 ds).1,
        (run format m cs).2 ++ (run format (run format m cs).1 ds).2) := by
  induction cs generalizing m with
  | nil => rfl
  | cons c cs ih => simp only [List.cons_append, run, ih]

theorem length_replies (m : MemoryStore) (cs : List Command) :
    (run format m cs).2.length = cs.length := by
  induction cs generalizing m with
  | nil => rfl
  | cons c cs ih => simp only [run, List.length_cons, ih]

/-- The reply to a command after a history, from an empty store on. -/
def replyAfter (format : QueryFormat) (history : List Command) (c : Command) :
    Logged (Except StoreError Reply) :=
  ((run format {} history).1.step format c).2

/-- The replies of a run are the replies to its commands, each after those before it. -/
theorem getElem?_replies (before after : List Command) (c : Command) :
    (run format {} (before ++ c :: after)).2[before.length]? =
      some (replyAfter format before c) := by
  rw [run_append, List.getElem?_append_right (Nat.le_of_eq (length_replies _ _)), length_replies,
    Nat.sub_self]
  rfl

/-! ## Effects of a history -/

theorem foldl_effect_of_not_writes {history : List Command}
    (h : ∀ c ∈ history, c.writes resource = false) (collection : Option (List Record)) :
    history.foldl (Command.effect resource) collection = collection := by
  induction history with
  | nil => rfl
  | cons c cs ih =>
    rw [List.forall_mem_cons] at h
    rw [List.foldl_cons, Command.effect_of_not_writes h.1, ih h.2]

/-- Commands that do not change a collection have no part in it. -/
theorem foldl_effect_filter (history : List Command) (collection : Option (List Record)) :
    (history.filter (Command.writes resource)).foldl (Command.effect resource) collection =
      history.foldl (Command.effect resource) collection := by
  induction history generalizing collection with
  | nil => rfl
  | cons c cs ih =>
    cases hwrites : c.writes resource with
    | true => rw [List.filter_cons_of_pos hwrites, List.foldl_cons, List.foldl_cons, ih]
    | false =>
      rw [List.filter_cons_of_neg (by simp [hwrites]), List.foldl_cons,
        Command.effect_of_not_writes hwrites, ih]

/-- Without an insertion, what is pushed follows the records there are. -/
theorem foldl_effect_some {history : List Command}
    (h : ∀ c ∈ history, c.inserts resource = false) (records : List Record) :
    history.foldl (Command.effect resource) (some records) =
      some (records ++ history.filterMap (Command.pushed? resource)) := by
  induction history generalizing records with
  | nil => simp
  | cons c cs ih =>
    rw [List.forall_mem_cons] at h
    cases hwrites : c.writes resource with
    | true =>
      obtain ⟨record, hpushed, heffect⟩ := Command.exists_of_writes hwrites h.1
      rw [List.foldl_cons, heffect, ih h.2, List.filterMap_cons_some hpushed, Option.getD_some,
        List.append_assoc, List.singleton_append]
    | false =>
      rw [List.foldl_cons, Command.effect_of_not_writes hwrites, ih h.2,
        List.filterMap_cons_none (Command.pushed?_of_not_writes hwrites)]

/-- The first record pushed makes a collection, if none was inserted. -/
theorem foldl_effect_none {history : List Command}
    (h : ∀ c ∈ history, c.inserts resource = false)
    (hwritten : ∃ c ∈ history, c.writes resource = true) :
    history.foldl (Command.effect resource) none =
      some (history.filterMap (Command.pushed? resource)) := by
  induction history with
  | nil => simp at hwritten
  | cons c cs ih =>
    rw [List.forall_mem_cons] at h
    cases hwrites : c.writes resource with
    | true =>
      obtain ⟨record, hpushed, heffect⟩ := Command.exists_of_writes hwrites h.1
      rw [List.foldl_cons, heffect, foldl_effect_some h.2, List.filterMap_cons_some hpushed]
      rfl
    | false =>
      have hrest : ∃ d ∈ cs, d.writes resource = true := by
        obtain ⟨d, hd, hw⟩ := hwritten
        rcases List.mem_cons.mp hd with rfl | hd
        · exact absurd hw (Bool.eq_false_iff.mp hwrites)
        · exact ⟨d, hd, hw⟩
      rw [List.foldl_cons, Command.effect_of_not_writes hwrites, ih h.2 hrest,
        List.filterMap_cons_none (Command.pushed?_of_not_writes hwrites)]

theorem isSome_foldl_effect (history : List Command) (collection : Option (List Record)) :
    (history.foldl (Command.effect resource) collection).isSome =
      (collection.isSome || history.any (Command.writes resource)) := by
  induction history generalizing collection with
  | nil => rw [List.foldl_nil, List.any_nil, Bool.or_false]
  | cons c cs ih =>
    rw [List.foldl_cons, ih, Command.isSome_effect, List.any_cons, Bool.or_assoc]

/-! ## Replies -/

/-- The reply to a request for records is determined by the collection of its resource. -/
theorem reply_congr {c : Command} (hc : c.asked? = some resource) {m m' : MemoryStore}
    (h : m.collections.get? resource = m'.collections.get? resource) :
    (m.step format c).2 = (m'.step format c).2 := by
  have hcollection : m.collection resource = m'.collection resource := by
    rw [collection, collection, h]
  have hfetch : m.fetchCollection resource = m'.fetchCollection resource := by
    rw [fetchCollection, fetchCollection, hcollection]
  have hquery : ∀ q, Repository.query ⟨m.source, format⟩ resource q =
      Repository.query ⟨m'.source, format⟩ resource q := by
    intro q
    simp only [Repository.query, source, hfetch]
  cases c with
  | insert r records => cases hc
  | push r record => cases hc
  | resources => cases hc
  | request request =>
    cases request with
    | name => cases hc
    | keys => cases hc
    | fetch r =>
      obtain rfl := Option.some.inj hc
      simp only [step, Repository.answer, source, hfetch]
    | byId r id =>
      obtain rfl := Option.some.inj hc
      simp only [step, Repository.answer, Repository.byId, source, fetchById, hcollection]
    | query r q =>
      obtain rfl := Option.some.inj hc
      simp only [step, Repository.answer, hquery]
    | queryText r input =>
      obtain rfl := Option.some.inj hc
      simp only [step, Repository.answer, Repository.queryText, hquery]

theorem value_reply_fetch (m : MemoryStore) :
    (m.step format (.request (.fetch resource))).2.value =
      match m.collections.get? resource with
      | some records => .ok (.answer (.records records))
      | none => .error (.resourceNotConfigured resource) := by
  simp only [step, Repository.answer, source, fetchCollection, collection]
  cases m.collections.get? resource <;> rfl

/-! ## Sessions from an empty store on -/

theorem get?_run_empty (history : List Command) :
    (run format {} history).1.collections.get? resource =
      history.foldl (Command.effect resource) none :=
  get?_run {} history

theorem value_replyAfter_fetch {history : List Command} {records : List Record}
    (h : history.foldl (Command.effect resource) none = some records) :
    (replyAfter format history (.request (.fetch resource))).value =
      .ok (.answer (.records records)) := by
  rw [replyAfter, value_reply_fetch, get?_run_empty, h]

/-- After an insertion a resource has the records inserted, and what was pushed since. -/
theorem value_replyAfter_fetch_insert (before : List Command) (records : List Record)
    {since : List Command} (h : ∀ c ∈ since, c.inserts resource = false) :
    (replyAfter format (before ++ .insert resource records :: since)
      (.request (.fetch resource))).value =
      .ok (.answer (.records (records ++ since.filterMap (Command.pushed? resource)))) := by
  apply value_replyAfter_fetch
  rw [List.foldl_append, List.foldl_cons, Command.effect, if_pos rfl, foldl_effect_some h]

theorem replyAfter_fetch_eq_error_iff {history : List Command} :
    (replyAfter format history (.request (.fetch resource))).value =
        .error (.resourceNotConfigured resource) ↔
      ∀ c ∈ history, c.writes resource = false := by
  constructor
  · intro h c hc
    cases hwrites : c.writes resource with
    | false => rfl
    | true =>
      have hany : history.any (Command.writes resource) = true :=
        List.any_eq_true.mpr ⟨c, hc, hwrites⟩
      have hsome : (history.foldl (Command.effect resource) none).isSome = true := by
        rw [isSome_foldl_effect, hany, Bool.or_true]
      obtain ⟨records, hrecords⟩ := Option.isSome_iff_exists.mp hsome
      rw [value_replyAfter_fetch hrecords] at h
      cases h
  · intro h
    rw [replyAfter, value_reply_fetch, get?_run_empty, foldl_effect_of_not_writes h]

theorem mem_resources_run {history : List Command} {name : String} :
    name ∈ (run format {} history).1.resources ↔ ∃ c ∈ history, c.writes name = true := by
  rw [resources, Dict.mem_keys, get?_run_empty, isSome_foldl_effect, Option.isSome_none,
    Bool.false_or, List.any_eq_true]

/-- The reply to a request for records is determined by the changes of its resource. -/
theorem replyAfter_congr {c : Command} (hc : c.asked? = some resource)
    {history other : List Command}
    (h : other.filter (Command.writes resource) = history.filter (Command.writes resource)) :
    replyAfter format other c = replyAfter format history c := by
  apply reply_congr hc
  rw [get?_run_empty, get?_run_empty, ← foldl_effect_filter other, h, foldl_effect_filter]

/-- What a session replies, at any point and whatever comes after it:

* a collection consists of the records that were last inserted and all that were pushed since,
  or of all that were pushed if none were inserted;
* a resource is unknown exactly as long as nothing was inserted or pushed under its name;
* the resources are listed in ascending order;
* a request for records is replied to as in any other session with the same changes of the
  resource, so other requests and changes of other resources can be left out. -/
theorem replies_of_session (format : QueryFormat) (history : List Command) (resource : String) :
    (∀ c after, (run format {} (history ++ c :: after)).2[history.length]? =
      some (replyAfter format history c)) ∧
    (∀ before records since, history = before ++ .insert resource records :: since →
      (∀ c ∈ since, c.inserts resource = false) →
      (replyAfter format history (.request (.fetch resource))).value =
        .ok (.answer (.records (records ++ since.filterMap (Command.pushed? resource))))) ∧
    ((∀ c ∈ history, c.inserts resource = false) →
      (∃ c ∈ history, c.writes resource = true) →
      (replyAfter format history (.request (.fetch resource))).value =
        .ok (.answer (.records (history.filterMap (Command.pushed? resource))))) ∧
    ((replyAfter format history (.request (.fetch resource))).value =
        .error (.resourceNotConfigured resource) ↔
      ∀ c ∈ history, c.writes resource = false) ∧
    (∃ names, (replyAfter format history .resources).value = .ok (.resources names) ∧
      names.Pairwise (· < ·) ∧ ∀ name, name ∈ names ↔ ∃ c ∈ history, c.writes name = true) ∧
    ∀ c, c.asked? = some resource → ∀ other : List Command,
      other.filter (Command.writes resource) = history.filter (Command.writes resource) →
      replyAfter format other c = replyAfter format history c := by
  refine ⟨fun c after => getElem?_replies history after c, ?_, ?_, replyAfter_fetch_eq_error_iff,
    ⟨(run format {} history).1.resources, rfl, Dict.keys_pairwise _, fun _ => mem_resources_run⟩,
    fun c hc other h => replyAfter_congr hc h⟩
  · rintro before records since rfl h
    exact value_replyAfter_fetch_insert before records h
  · intro hinserts hwritten
    exact value_replyAfter_fetch (foldl_effect_none hinserts hwritten)

/-- Books are inserted and pushed around a failing request and another resource, which may both
be left out. -/
theorem replies_of_session_books :
    let book (id : String) : Record := Dict.empty.insert "id" (.text id)
    let history : List Command := [.push "books" (book "a"), .insert "books" [book "b"],
      .request (.byId "films" "c"), .push "films" (book "c"), .push "books" (book "d")]
    let kept : List Command := [.push "books" (book "a"), .insert "books" [book "b"],
      .push "books" (book "d")]
    let fetch : Command := .request (.fetch "books")
    (replyAfter default history fetch).value = .ok (.answer (.records [book "b", book "d"])) ∧
      replyAfter default kept fetch = replyAfter default history fetch := by
  intro book history kept fetch
  obtain ⟨-, hinsert, -, -, -, hkept⟩ := replies_of_session default history "books"
  exact ⟨hinsert [.push "books" (book "a")] [book "b"] _ rfl (by decide), hkept fetch rfl kept rfl⟩

end RecordQuery.MemoryStore
