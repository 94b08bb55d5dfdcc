import RecordQuery.Proofs.Query.BlankKeys

/-!
# Pieces of a query string that do not matter

A query string is pieces joined by `&`, and a piece gives a value to the name that it decodes to.
Only the last value of each key is read, so a piece of another name can go, a piece can go that a
later one of the same name follows, and neighbours of different names can change places. What is
read stays the same, errors included.
-/

namespace RecordQuery

open Text

namespace Text.Form

/-! ## The last value of a name -/

section

variable {name : String}

theorem lastValue?_append (pairs others : List Pair) (name : String) :
    lastValue? (pairs ++ others) name = (lastValue? others name).or (lastValue? pairs name) := by
  rw [lastValue?, List.reverse_append, List.find?_append, Option.map_or]
  rfl

theorem lastValue?_cons (pair : Pair) (pairs : List Pair) (name : String) :
    lastValue? (pair :: pairs) name = (lastValue? pairs name).or (lastValue? [pair] name) :=
  lastValue?_append [pair] pairs name

theorem lastValue?_singleton_of_ne {pair : Pair} (h : pair.1 ≠ name) :
    lastValue? [pair] name = none := by
  simp [lastValue?, h]

theorem isSome_lastValue? {pair : Pair} {pairs : List Pair} (h : pair ∈ pairs)
    (hname : pair.1 = name) : (lastValue? pairs name).isSome = true := by
  rw [lastValue?, Option.isSome_map, List.find?_isSome]
  exact ⟨pair, List.mem_reverse.mpr h, decide_eq_true hname⟩

variable (before : List Pair) {pair : Pair} {after : List Pair}

/-- A pair does not matter to other names, nor where its own name comes again. -/
theorem lastValue?_remove (h : pair.1 ≠ name ∨ ∃ later ∈ after, later.1 = pair.1) :
    lastValue? (before ++ pair :: after) name = lastValue? (before ++ after) name := by
  rw [lastValue?_append, lastValue?_append, lastValue?_cons]
  by_cases hname : pair.1 = name
  · obtain ⟨later, hlater, hsame⟩ := h.resolve_left (not_not_intro hname)
    obtain ⟨value, hvalue⟩ :=
      Option.isSome_iff_exists.mp (isSome_lastValue? hlater (hsame.trans hname))
    rw [hvalue, Option.some_or]
  · rw [lastValue?_singleton_of_ne hname, Option.or_none]

theorem lastValue?_swap {other : Pair} (h : pair.1 ≠ other.1) :
    lastValue? (before ++ pair :: other :: after) name =
      lastValue? (before ++ other :: pair :: after) name := by
  have hcomm : (lastValue? [other] name).or (lastValue? [pair] name) =
      (lastValue? [pair] name).or (lastValue? [other] name) := by
    by_cases hname : pair.1 = name
    · rw [lastValue?_singleton_of_ne fun hother => h (hname.trans hother.symm), Option.none_or,
        Option.or_none]
    · rw [lastValue?_singleton_of_ne hname, Option.none_or, Option.or_none]
  have htwo : ∀ first second : Pair, lastValue? (first :: second :: after) name =
      (lastValue? after name).or ((lastValue? [second] name).or (lastValue? [first] name)) :=
    fun first second => by
      rw [lastValue?_cons first, lastValue?_cons second after, Option.or_assoc]
  rw [lastValue?_append, lastValue?_append, htwo, htwo, hcomm]

end

/-! ## Joined pieces -/

/-- A text that can stand between the separators of a query string: nothing cuts it, and trimming
leaves it alone. -/
structure IsPiece (piece : List Char) : Prop where
  no_separator : '&' ∉ piece
  trimmed : trim piece = piece

instance (piece : List Char) : Decidable (IsPiece piece) :=
  decidable_of_iff ('&' ∉ piece ∧ trim piece = piece)
    ⟨fun ⟨h₁, h₂⟩ => ⟨h₁, h₂⟩, fun ⟨h₁, h₂⟩ => ⟨h₁, h₂⟩⟩

theorem trim_intercalate {pieces : List (List Char)} (h : ∀ piece ∈ pieces, IsPiece piece) :
    trim (['&'].intercalate pieces) = ['&'].intercalate pieces := by
  rw [trim_eq_self_iff]
  induction pieces with
  | nil => exact ⟨rfl, rfl⟩
  | cons piece rest ih =>
    obtain ⟨hpiece, hrest⟩ := List.forall_mem_cons.mp h
    have htrimmed := trim_eq_self_iff.mp hpiece.trimmed
    cases rest with
    | nil => rwa [List.intercalate_singleton]
    | cons second rest =>
      rw [List.intercalate_cons_cons]
      constructor
      · by_cases hempty : piece = []
        · rw [hempty]
          rfl
        · rw [List.append_assoc, startsBlank_append hempty]
          exact htrimmed.1
      · by_cases hempty : ['&'].intercalate (second :: rest) = []
        · rw [hempty, List.append_nil, endsBlank_append _ (List.cons_ne_nil _ _)]
          rfl
        · rw [endsBlank_append _ hempty]
          exact (ih hrest).2

theorem decode_intercalate {pieces : List (List Char)} (h : ∀ piece ∈ pieces, IsPiece piece) :
    decode (['&'].intercalate pieces) = (pieces.filter (· ≠ [])).map decodePair := by
  by_cases hempty : pieces = []
  · rw [hempty]
    rfl
  · rw [decode, List.splitOn_intercalate '&' (fun piece hpiece => (h piece hpiece).no_separator)
      hempty]

/-- Empty pieces give no value to any name but the empty one. -/
theorem lastValue?_decode_intercalate {pieces : List (List Char)}
    (h : ∀ piece ∈ pieces, IsPiece piece) {name : String} (hname : name ≠ "") :
    lastValue? (decode (['&'].intercalate pieces)) name =
      lastValue? (pieces.map decodePair) name := by
  have hnil : (decodePair []).1 = "" := rfl
  rw [decode_intercalate h]
  clear h
  induction pieces with
  | nil => rfl
  | cons piece rest ih =>
    rw [List.map_cons, lastValue?_cons]
    by_cases hempty : piece = []
    · rw [hempty, List.filter_cons_of_neg (by simp), ih,
        lastValue?_singleton_of_ne (hnil ▸ hname.symm), Option.or_none]
    · rw [List.filter_cons_of_pos (by simpa using hempty), List.map_cons, lastValue?_cons, ih]

end Text.Form

namespace QueryFormat

open Form

/-- The name that a piece gives a value to. -/
def pieceName (piece : String) : String := (decodePair piece.toList).1

section

variable {p : QueryFormat} {pieces others : List String}

/-- Each facet has the last value among the pieces of its key's name. -/
theorem facetValue?_pieces (h : ∀ piece ∈ pieces, IsPiece piece.toList) (f : Facet) :
    p.facetValue? ("&".intercalate pieces) f =
      lastValue? (pieces.map fun piece => decodePair piece.toList) (p.keys.get f) := by
  have hpieces : ∀ piece ∈ pieces.map String.toList, IsPiece piece := List.forall_mem_map.mpr h
  have hjoined : ("&".intercalate pieces).toList = ['&'].intercalate (pieces.map String.toList) :=
    String.toList_intercalate
  rw [facetValue?, hjoined, trim_intercalate hpieces,
    lastValue?_decode_intercalate hpieces (p.usable f).2, List.map_map]
  rfl

theorem parse_pieces_congr (h : ∀ piece ∈ pieces, IsPiece piece.toList)
    (hothers : ∀ piece ∈ others, IsPiece piece.toList)
    (hlast : ∀ f, lastValue? (pieces.map fun piece => decodePair piece.toList) (p.keys.get f) =
      lastValue? (others.map fun piece => decodePair piece.toList) (p.keys.get f)) :
    p.parse ("&".intercalate pieces) = p.parse ("&".intercalate others) :=
  parse_congr fun f => by rw [facetValue?_pieces h, facetValue?_pieces hothers, hlast]

end

/-- Reading a query string, errors and messages included, does not change when a piece goes that is
empty or has a name that is no key, when a piece goes whose name comes again in a later one, or when
neighbours of different names change places. -/
theorem parse_last_values (p : QueryFormat) (before after : List String) :
    (∀ piece, (∀ x ∈ before ++ piece :: after, IsPiece x.toList) →
      (piece = "" ∨ (∀ f, pieceName piece ≠ p.keys.get f) ∨
        ∃ later ∈ after, pieceName later = pieceName piece) →
      p.parse ("&".intercalate (before ++ piece :: after)) =
        p.parse ("&".intercalate (before ++ after))) ∧
    (∀ piece other, (∀ x ∈ before ++ piece :: other :: after, IsPiece x.toList) →
      pieceName piece ≠ pieceName other →
      p.parse ("&".intercalate (before ++ piece :: other :: after)) =
        p.parse ("&".intercalate (before ++ other :: piece :: after))) := by
  refine ⟨fun piece hpieces hneedless => ?_, fun piece other hpieces hname => ?_⟩
  · have hkept : ∀ x ∈ before ++ after, IsPiece x.toList := fun x hx =>
      hpieces x (((List.sublist_cons_self piece after).append_left before).subset hx)
    refine parse_pieces_congr hpieces hkept fun f => ?_
    rw [List.map_append, List.map_append, List.map_cons]
    apply lastValue?_remove
    obtain rfl | hkey | ⟨later, hlater, hsame⟩ := hneedless
    · exact .inl (p.usable f).2.symm
    · exact .inl (hkey f)
    · exact .inr ⟨_, List.mem_map_of_mem hlater, hsame⟩
  · have hswapped : ∀ x ∈ before ++ other :: piece :: after, IsPiece x.toList := fun x hx =>
      hpieces x (((List.Perm.swap piece other after).append_left before).mem_iff.mp hx)
    refine parse_pieces_congr hpieces hswapped fun f => ?_
    rw [List.map_append, List.map_append]
    exact lastValue?_swap _ hname

/-- A filter that is wrong does not matter before another spelling of its key, and a name that is no
text can go anywhere. -/
theorem parse_last_values_respelled :
    let p : QueryFormat := default
    let wrong := "filter=a"
    let others := ["", "f%69lter=b%3D1"]
    let unnamed := "%FF=%"
    ((∀ x ∈ ["sort=-a"] ++ wrong :: others, IsPiece x.toList) ∧
      (∃ later ∈ others, pieceName later = pieceName wrong) ∧
      p.parse ("&".intercalate (["sort=-a"] ++ wrong :: others)) =
        p.parse ("&".intercalate (["sort=-a"] ++ others))) ∧
    ((∀ x ∈ [] ++ unnamed :: wrong :: others, IsPiece x.toList) ∧
      pieceName unnamed ≠ pieceName wrong ∧
      p.parse ("&".intercalate ([] ++ unnamed :: wrong :: others)) =
        p.parse ("&".intercalate ([] ++ wrong :: unnamed :: others))) := by
  intro p wrong others unnamed
  have hpieces : ∀ x ∈ ["sort=-a"] ++ wrong :: others, IsPiece x.toList := by decide +kernel
  have hlater : ∃ later ∈ others, pieceName later = pieceName wrong := by decide +kernel
  have hunnamed : ∀ x ∈ [] ++ unnamed :: wrong :: others, IsPiece x.toList := by decide +kernel
  have hname : pieceName unnamed ≠ pieceName wrong := by decide +kernel
  exact ⟨⟨hpieces, hlater, (parse_last_values p _ others).1 wrong hpieces (.inr (.inr hlater))⟩,
    hunnamed, hname, (parse_last_values p _ others).2 unnamed wrong hunnamed hname⟩

end QueryFormat

end RecordQuery
