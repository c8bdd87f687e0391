import Taskflow.Json.Reader
import Taskflow.Proofs.Json.Spelled
import Taskflow.Proofs.Json.Spot

/-!
# Trees that texts denote

Not every tree is denoted by a text: containers may not be nested too deeply, and each number must
be one that some word denotes. The main statement says that nothing else is asked of a tree.
-/

namespace Taskflow.Json

/-- Whether a tree may stand in a text inside of the given number of containers. -/
inductive Denotable : Nat → Json → Prop
  | null {depth : Nat} : Denotable depth .null
  | boolean {depth : Nat} {value : Bool} : Denotable depth (.boolean value)
  | text {depth : Nat} {value : String} : Denotable depth (.text value)
  | unreadable {depth : Nat} : Denotable depth .unreadable
  | number {depth : Nat} {value : Number} {word : List Char} (hword : IsWord word)
      (hvalue : wordValue? word = some (.number value)) : Denotable depth (.number value)
  | array {depth : Nat} {items : List Json} (hdepth : depth < greatestDepth)
      (hitems : ∀ item ∈ items, Denotable (depth + 1) item) : Denotable depth (.array items)
  | object {depth : Nat} {members : List (String × Json)} (hdepth : depth < greatestDepth)
      (hmembers : ∀ member ∈ members, Denotable (depth + 1) member.2) :
      Denotable depth (.object members)

/-- What a word denotes may stand anywhere. -/
theorem denotable_of_wordValue? {word : List Char} {tree : Json} {depth : Nat}
    (hword : IsWord word) (h : wordValue? word = some tree) :
    Denotable depth tree := by
  have hvalue := h
  unfold wordValue? at h
  split at h
  · cases h
    exact .null
  split at h
  · cases h
    exact .boolean
  split at h
  · cases h
    exact .boolean
  · obtain ⟨literal, -, rfl⟩ := Option.map_eq_some_iff.mp h
    split
    · next value hnumber =>
      rw [hnumber] at hvalue
      exact .number hword hvalue
    · exact .unreadable

/-- Whether all that open containers hold may stand there. -/
def HoldDenotable : List Frame → Prop
  | [] => True
  | .array items :: outer =>
    (∀ item ∈ items, Denotable (outer.length + 1) item) ∧ HoldDenotable outer
  | .object members _ :: outer =>
    (∀ member ∈ members, Denotable (outer.length + 1) member.2) ∧ HoldDenotable outer

/-- Whether all that has been read may stand where it does. -/
structure Reader.IsSound (reader : Reader) : Prop where
  /-- The open containers hold what may stand there. -/
  frames : HoldDenotable reader.frames
  /-- The whole value may stand outside of all containers. -/
  value : ∀ value, reader.expecting = .nothing value → Denotable 0 value

/-- A value that may stand in the open containers is added to them. -/
theorem isSound_complete {frames : List Frame} {value : Json} (hframes : HoldDenotable frames)
    (hvalue : Denotable frames.length value) : (Reader.complete value frames).IsSound := by
  cases frames with
  | nil =>
    refine ⟨trivial, fun other hother => ?_⟩
    cases hother
    exact hvalue
  | cons frame outer =>
    cases frame with
    | array items =>
      have hitems := List.forall_mem_cons.mpr ⟨hvalue, hframes.1⟩
      exact ⟨⟨hitems, hframes.2⟩, fun _ => Expecting.noConfusion⟩
    | object members key =>
      have hmembers : ∀ member ∈ (key, value) :: members, Denotable (outer.length + 1) member.2 :=
        List.forall_mem_cons.mpr ⟨hvalue, hframes.1⟩
      exact ⟨⟨hmembers, hframes.2⟩, fun _ => Expecting.noConfusion⟩

/-- A container that closes is added to the others, unless it is too deep inside of them. -/
theorem isSound_close {outer : List Frame} {container : Json} (houter : HoldDenotable outer)
    (hcontainer : outer.length < greatestDepth → Denotable outer.length container) :
    (Reader.close outer container).IsSound := by
  refine isSound_complete houter ?_
  split
  · exact .unreadable
  · next hdepth => exact hcontainer (Nat.lt_of_not_le hdepth)

/-- The members of an object have the values that were read. -/
theorem map_snd_of_mapM {members : List (Option String × Json)} {named : List (String × Json)}
    (h : (members.mapM fun (key, value) => key.map fun key => (key, value)) = some named) :
    named.map Prod.snd = members.map Prod.snd := by
  induction members generalizing named with
  | nil =>
    obtain rfl : [] = named := Option.some.inj h
    rfl
  | cons member rest ih =>
    rw [List.mapM_cons] at h
    obtain ⟨first, hfirst, h⟩ := Option.bind_eq_some_iff.mp h
    obtain ⟨others, hothers, hmade⟩ := Option.bind_eq_some_iff.mp h
    obtain rfl := Option.some.inj hmade
    obtain ⟨key, -, rfl⟩ := Option.map_eq_some_iff.mp hfirst
    rw [List.map_cons, List.map_cons, ih hothers]

/-- An object may stand where its members allow it, even if a key cannot be read. -/
theorem denotable_objectOf {depth : Nat} {members : List (Option String × Json)}
    (hdepth : depth < greatestDepth) (h : ∀ member ∈ members, Denotable (depth + 1) member.2) :
    Denotable depth (objectOf members) := by
  unfold objectOf
  split
  · next named hnamed =>
    refine .object hdepth fun member hmember => ?_
    have hvalue : member.2 ∈ members.map Prod.snd :=
      map_snd_of_mapM hnamed ▸ List.mem_map_of_mem hmember
    obtain ⟨given, hgiven, heq⟩ := List.mem_map.mp hvalue
    exact heq ▸ h given hgiven
  · exact .unreadable

/-- A value that begins may stand in the open containers. -/
theorem Reader.isSound_of_begin? {frames : List Frame} {lexeme : Lexeme} {reader : Reader}
    (hframes : HoldDenotable frames) (hlexeme : lexeme.IsSound)
    (h : Reader.begin? frames lexeme = some reader) : reader.IsSound := by
  unfold Reader.begin? at h
  split at h
  · obtain ⟨value, hvalue, rfl⟩ := Option.map_eq_some_iff.mp h
    exact isSound_complete hframes (denotable_of_wordValue? hlexeme hvalue)
  · obtain ⟨content, -, rfl⟩ := Option.map_eq_some_iff.mp h
    refine isSound_complete hframes ?_
    cases content with
    | some value => exact .text
    | none => exact .unreadable
  · cases h
    exact ⟨⟨List.forall_mem_nil _, hframes⟩, fun _ => Expecting.noConfusion⟩
  · cases h
    exact ⟨hframes, fun _ => Expecting.noConfusion⟩
  · cases h

/-- One lexeme leaves all that has been read where it may stand. -/
theorem Reader.isSound_of_step? {reader reader' : Reader} {lexeme : Lexeme}
    (hreader : reader.IsSound) (hlexeme : lexeme.IsSound)
    (h : reader.step? lexeme = some reader') : reader'.IsSound := by
  obtain ⟨frames, expecting⟩ := reader
  have hframes : HoldDenotable frames := hreader.frames
  unfold Reader.step? at h
  dsimp only at h
  split at h
  -- A value begins.
  case h_1 | h_3 => exact isSound_of_begin? hframes hlexeme h
  -- A container closes.
  case h_2 =>
    cases h
    exact isSound_close hframes.2 fun hdepth => .array hdepth (List.forall_mem_nil _)
  case h_4 =>
    cases h
    exact isSound_close hframes fun hdepth => .object hdepth (List.forall_mem_nil _)
  case h_9 =>
    cases h
    refine isSound_close hframes.2 fun hdepth => .array hdepth fun item hitem => ?_
    exact hframes.1 item (List.mem_reverse.mp hitem)
  case h_11 =>
    cases h
    refine isSound_close hframes.2 fun hdepth => denotable_objectOf hdepth fun member hmember => ?_
    exact hframes.1 member (List.mem_reverse.mp hmember)
  -- A key is read.
  case h_5 =>
    obtain ⟨key, -, rfl⟩ := Option.map_eq_some_iff.mp h
    exact ⟨⟨List.forall_mem_nil _, hframes⟩, fun _ => Expecting.noConfusion⟩
  case h_6 =>
    obtain ⟨key, -, rfl⟩ := Option.map_eq_some_iff.mp h
    exact ⟨hframes, fun _ => Expecting.noConfusion⟩
  -- A colon or a comma is read.
  case h_7 | h_8 | h_10 =>
    cases h
    exact ⟨hframes, fun _ => Expecting.noConfusion⟩
  case h_12 => cases h

/-- What a text denotes may stand outside of all containers. -/
theorem denotable_of_ofText? {text : String} {tree : Json} (h : ofText? text = some tree) :
    Denotable 0 tree := by
  obtain ⟨lexemes, hlexemes, h⟩ := Option.bind_eq_some_iff.mp h
  obtain ⟨reader, hread, h⟩ := Option.bind_eq_some_iff.mp h
  have hstart : Reader.IsSound ⟨[], .value⟩ := ⟨trivial, fun _ => Expecting.noConfusion⟩
  have hreader := holds_of_foldlM (fun _ _ _ => Reader.isSound_of_step?) hstart
    (isSound_of_lexemes? hlexemes) hread
  split at h
  · next value hvalue =>
    cases h
    exact hreader.value _ hvalue
  · cases h

/-- Whether a tree is read from the given lexemes inside of the given number of containers. The
first of them does not close an array. -/
structure IsSpelledBy (tree : Json) (depth : Nat) (first : Lexeme) (rest : List Lexeme) : Prop where
  /-- The lexemes can be spelled out. -/
  whole : ∀ lexeme ∈ first :: rest, lexeme.IsWhole
  /-- A value begins. -/
  begins : first ≠ .mark ']'
  /-- The value is read as a whole. -/
  read : ∀ frames : List Frame, frames.length = depth →
    (first :: rest).foldlM Reader.step? ⟨frames, .value⟩ = some (Reader.complete tree frames)

/-- What makes one lexeme is read from it. -/
theorem isSpelledBy_of_begin? {tree : Json} {lexeme : Lexeme} (depth : Nat)
    (hwhole : lexeme.IsWhole) (hbegins : lexeme ≠ .mark ']')
    (h : ∀ frames, Reader.begin? frames lexeme = some (Reader.complete tree frames)) :
    IsSpelledBy tree depth lexeme [] := by
  refine ⟨List.forall_mem_singleton.mpr hwhole, hbegins, fun frames _ => ?_⟩
  have hstep : Reader.step? ⟨frames, .value⟩ lexeme = some (Reader.complete tree frames) := h frames
  exact foldlM_cons_of_some hstep []

/-- A word is read as what it denotes. -/
theorem isSpelledBy_word {tree : Json} {word : List Char} (depth : Nat)
    (hword : IsWord word) (hvalue : wordValue? word = some tree) :
    IsSpelledBy tree depth (.word word) [] := by
  refine isSpelledBy_of_begin? depth (.word hword) Lexeme.noConfusion fun frames => ?_
  rw [Reader.begin?, hvalue, Option.map_some]

/-- A text is read from its quotation. -/
theorem quotedText?_quote (text : String) : quotedText? (quote text) = some (some text) := by
  obtain ⟨parts, hparts, hjoined⟩ := Option.bind_eq_some_iff.mp (joinParts?_quote text)
  rw [quotedText?, hparts, Option.map_some, hjoined, Option.map_some, String.ofList_toList]

/-- The first item of an array is read like any other. -/
theorem IsSpelledBy.read_firstItem {tree : Json} {first : Lexeme} {rest : List Lexeme}
    {outer : List Frame} (h : IsSpelledBy tree (outer.length + 1) first rest) :
    (first :: rest).foldlM Reader.step? ⟨.array [] :: outer, .firstItem⟩ =
      some ⟨.array [tree] :: outer, .separator⟩ := by
  have hstep : Reader.step? ⟨.array [] :: outer, .firstItem⟩ first =
      Reader.step? ⟨.array [] :: outer, .value⟩ first := by
    cases first with
    | word | quoted => rfl
    | mark c =>
      have hne : c ≠ ']' := fun heq => h.begins (congrArg Lexeme.mark heq)
      simp [Reader.step?, hne]
  have hread := h.read (.array [] :: outer) rfl
  rw [List.foldlM_cons] at hread ⊢
  rw [hstep, hread]
  rfl

/-- Further items of an array are read behind commas. -/
theorem exists_lexemes_of_items {items : List Json} {depth : Nat}
    (h : ∀ item ∈ items, ∃ first rest, IsSpelledBy item (depth + 1) first rest) :
    ∃ lexemes : List Lexeme, (∀ lexeme ∈ lexemes, lexeme.IsWhole) ∧
      ∀ (read : List Json) (outer : List Frame), outer.length = depth →
        lexemes.foldlM Reader.step? ⟨.array read :: outer, .separator⟩ =
          some ⟨.array (items.reverse ++ read) :: outer, .separator⟩ := by
  induction items with
  | nil => exact ⟨[], List.forall_mem_nil _, fun _ _ _ => rfl⟩
  | cons item items ih =>
    obtain ⟨⟨first, rest, hitem⟩, hitems⟩ := List.forall_mem_cons.mp h
    obtain ⟨lexemes, hwhole, hread⟩ := ih hitems
    refine ⟨.mark ',' :: (first :: rest) ++ lexemes, ?_, fun read outer houter => ?_⟩
    · rw [List.cons_append, List.forall_mem_cons, List.forall_mem_append]
      exact ⟨.mark rfl, hitem.whole, hwhole⟩
    · have hcomma : Reader.step? ⟨.array read :: outer, .separator⟩ (.mark ',') =
          some ⟨.array read :: outer, .value⟩ := rfl
      have hvalue := hitem.read (.array read :: outer) (congrArg Nat.succ houter)
      rw [List.cons_append, foldlM_cons_of_some hcomma, foldlM_append_of_some hvalue,
        Reader.complete, hread (item :: read) outer houter, List.reverse_cons, List.append_assoc,
        List.singleton_append]

/-- A key of an object that may be read next is read. -/
theorem read_member {key : String} {value : Json} {first : Lexeme} {rest : List Lexeme}
    {outer : List Frame} {start : Reader} {read : List (Option String × Json)}
    (hvalue : IsSpelledBy value (outer.length + 1) first rest)
    (hkey : Reader.step? start (.quoted (quote key)) =
      some ⟨.object read (some key) :: outer, .colon⟩) :
    (.quoted (quote key) :: .mark ':' :: first :: rest).foldlM Reader.step? start =
      some ⟨.object ((some key, value) :: read) (some key) :: outer, .separator⟩ := by
  have hcolon : Reader.step? ⟨.object read (some key) :: outer, .colon⟩ (.mark ':') =
      some ⟨.object read (some key) :: outer, .value⟩ := rfl
  rw [foldlM_cons_of_some hkey, foldlM_cons_of_some hcolon,
    hvalue.read (.object read (some key) :: outer) rfl, Reader.complete]

/-- Further members of an object are read behind commas. -/
theorem exists_lexemes_of_members {members : List (String × Json)} {depth : Nat}
    (h : ∀ member ∈ members, ∃ first rest, IsSpelledBy member.2 (depth + 1) first rest) :
    ∃ lexemes : List Lexeme, (∀ lexeme ∈ lexemes, lexeme.IsWhole) ∧
      ∀ (read : List (Option String × Json)) (key : Option String) (outer : List Frame),
        outer.length = depth → ∃ last,
          lexemes.foldlM Reader.step? ⟨.object read key :: outer, .separator⟩ =
            some ⟨.object ((members.map fun member => (some member.1, member.2)).reverse ++ read)
              last :: outer, .separator⟩ := by
  induction members with
  | nil => exact ⟨[], List.forall_mem_nil _, fun _ key _ _ => ⟨key, rfl⟩⟩
  | cons member members ih =>
    obtain ⟨key, value⟩ := member
    obtain ⟨⟨first, rest, hvalue⟩, hmembers⟩ := List.forall_mem_cons.mp h
    obtain ⟨lexemes, hwhole, hread⟩ := ih hmembers
    refine ⟨.mark ',' :: (.quoted (quote key) :: .mark ':' :: first :: rest) ++ lexemes, ?_,
      fun read before outer houter => ?_⟩
    · rw [List.cons_append, List.forall_mem_cons, List.forall_mem_append, List.forall_mem_cons,
        List.forall_mem_cons]
      exact ⟨.mark rfl, ⟨isWhole_quote key, .mark rfl, hvalue.whole⟩, hwhole⟩
    · subst houter
      have hcomma : Reader.step? ⟨.object read before :: outer, .separator⟩ (.mark ',') =
          some ⟨.object read before :: outer, .key⟩ := rfl
      have hkey : Reader.step? ⟨.object read before :: outer, .key⟩ (.quoted (quote key)) =
          some ⟨.object read (some key) :: outer, .colon⟩ := by
        simp [Reader.step?, quotedText?_quote]
      obtain ⟨last, hrest⟩ := hread ((some key, value) :: read) (some key) outer rfl
      refine ⟨last, ?_⟩
      rw [List.cons_append, foldlM_cons_of_some hcomma,
        foldlM_append_of_some (read_member hvalue hkey), hrest, List.map_cons, List.reverse_cons,
        List.append_assoc, List.singleton_append]

/-- Members with keys that can be read make an object. -/
theorem objectOf_map (members : List (String × Json)) :
    objectOf (members.map fun member => (some member.1, member.2)) = .object members := by
  have hnamed : (members.map fun member => (some member.1, member.2)).mapM
      (fun (key, value) => key.map fun key => (key, value)) = some members := by
    induction members with
    | nil => rfl
    | cons member rest ih =>
      rw [List.map_cons, List.mapM_cons, ih]
      rfl
  rw [objectOf, hnamed]

/-- A container closes where it is not too deep. -/
theorem close_of_lt {outer : List Frame} (h : outer.length < greatestDepth) (container : Json) :
    Reader.close outer container = Reader.complete container outer := by
  rw [Reader.close, if_neg (Nat.not_le_of_lt h)]

/-- An array is read from its items between brackets. -/
theorem exists_isSpelledBy_array {items : List Json} {depth : Nat} (hdepth : depth < greatestDepth)
    (h : ∀ item ∈ items, ∃ first rest, IsSpelledBy item (depth + 1) first rest) :
    ∃ first rest, IsSpelledBy (.array items) depth first rest := by
  have hopen : ∀ frames : List Frame, Reader.step? ⟨frames, .value⟩ (.mark '[') =
      some ⟨.array [] :: frames, .firstItem⟩ := fun _ => rfl
  cases items with
  | nil =>
    refine ⟨.mark '[', [.mark ']'], ?_, by decide, fun outer houter => ?_⟩
    · exact List.forall_mem_cons.mpr ⟨.mark rfl, List.forall_mem_singleton.mpr (.mark rfl)⟩
    · subst houter
      rw [← close_of_lt hdepth]
      rfl
  | cons item items =>
    obtain ⟨⟨first, rest, hitem⟩, hitems⟩ := List.forall_mem_cons.mp h
    obtain ⟨lexemes, hwhole, hread⟩ := exists_lexemes_of_items hitems
    refine ⟨.mark '[', (first :: rest) ++ (lexemes ++ [.mark ']']), ?_, by decide,
      fun outer houter => ?_⟩
    · rw [List.forall_mem_cons, List.forall_mem_append, List.forall_mem_append]
      exact ⟨.mark rfl, hitem.whole, hwhole, List.forall_mem_singleton.mpr (.mark rfl)⟩
    · subst houter
      have hclose : ∀ read, Reader.step? ⟨.array read :: outer, .separator⟩ (.mark ']') =
          some (Reader.close outer (.array read.reverse)) := fun _ => rfl
      rw [foldlM_cons_of_some (hopen outer), foldlM_append_of_some hitem.read_firstItem,
        foldlM_append_of_some (hread [item] outer rfl), foldlM_cons_of_some (hclose _),
        close_of_lt hdepth, List.reverse_append, List.reverse_reverse]
      rfl

/-- An object is read from its members between braces. -/
theorem exists_isSpelledBy_object {members : List (String × Json)} {depth : Nat}
    (hdepth : depth < greatestDepth)
    (h : ∀ member ∈ members, ∃ first rest, IsSpelledBy member.2 (depth + 1) first rest) :
    ∃ first rest, IsSpelledBy (.object members) depth first rest := by
  have hopen : ∀ frames : List Frame, Reader.step? ⟨frames, .value⟩ (.mark '\x7b') =
      some ⟨frames, .firstKey⟩ := fun _ => rfl
  cases members with
  | nil =>
    refine ⟨.mark '\x7b', [.mark '\x7d'], ?_, by decide, fun outer houter => ?_⟩
    · exact List.forall_mem_cons.mpr ⟨.mark rfl, List.forall_mem_singleton.mpr (.mark rfl)⟩
    · subst houter
      rw [← close_of_lt hdepth]
      rfl
  | cons member members =>
    obtain ⟨key, value⟩ := member
    obtain ⟨⟨first, rest, hvalue⟩, hmembers⟩ := List.forall_mem_cons.mp h
    obtain ⟨lexemes, hwhole, hread⟩ := exists_lexemes_of_members hmembers
    refine ⟨.mark '\x7b', (.quoted (quote key) :: .mark ':' :: first :: rest) ++
      (lexemes ++ [.mark '\x7d']), ?_, by decide, fun outer houter => ?_⟩
    · rw [List.forall_mem_cons, List.forall_mem_append, List.forall_mem_append,
        List.forall_mem_cons, List.forall_mem_cons]
      exact ⟨.mark rfl, ⟨isWhole_quote key, .mark rfl, hvalue.whole⟩, hwhole,
        List.forall_mem_singleton.mpr (.mark rfl)⟩
    · subst houter
      have hkey : Reader.step? ⟨outer, .firstKey⟩ (.quoted (quote key)) =
          some ⟨.object [] (some key) :: outer, .colon⟩ := by
        simp [Reader.step?, quotedText?_quote]
      obtain ⟨last, hmembers⟩ := hread [(some key, value)] (some key) outer rfl
      have hclose : ∀ read, Reader.step? ⟨.object read last :: outer, .separator⟩ (.mark '\x7d') =
          some (Reader.close outer (objectOf read.reverse)) := fun _ => rfl
      have hall := objectOf_map ((key, value) :: members)
      rw [List.map_cons] at hall
      rw [foldlM_cons_of_some (hopen outer), foldlM_append_of_some (read_member hvalue hkey),
        foldlM_append_of_some hmembers, foldlM_cons_of_some (hclose _), close_of_lt hdepth,
        List.reverse_append, List.reverse_reverse, List.reverse_singleton, List.singleton_append,
        hall]
      rfl

/-- A tree that may stand somewhere is read from some lexemes there. -/
theorem Denotable.exists_isSpelledBy {depth : Nat} {tree : Json} (h : Denotable depth tree) :
    ∃ first rest, IsSpelledBy tree depth first rest := by
  induction h with
  | @null depth =>
    have hword : IsWord "null".toList := isWord_of_all rfl rfl
    exact ⟨_, _, isSpelledBy_word depth hword (by rfl)⟩
  | @boolean depth value =>
    cases value with
    | false =>
      have hword : IsWord "false".toList := isWord_of_all rfl rfl
      exact ⟨_, _, isSpelledBy_word depth hword (by rfl)⟩
    | true =>
      have hword : IsWord "true".toList := isWord_of_all rfl rfl
      exact ⟨_, _, isSpelledBy_word depth hword (by rfl)⟩
  | @text depth value =>
    refine ⟨_, _, isSpelledBy_of_begin? depth (isWhole_quote value) Lexeme.noConfusion fun _ => ?_⟩
    rw [Reader.begin?, quotedText?_quote, Option.map_some]
  | @unreadable depth =>
    have hword : IsWord "1e400".toList := isWord_of_all rfl rfl
    exact ⟨_, _, isSpelledBy_word depth hword (by rfl)⟩
  | @number depth value word hword hvalue => exact ⟨_, _, isSpelledBy_word depth hword hvalue⟩
  | array hdepth hitems ih => exact exists_isSpelledBy_array hdepth ih
  | object hdepth hmembers ih => exact exists_isSpelledBy_object hdepth ih

/-- A tree is denoted by some text exactly if it may stand outside of all containers. -/
theorem exists_ofText?_iff {tree : Json} :
    (∃ text, ofText? text = some tree) ↔ Denotable 0 tree := by
  constructor
  · rintro ⟨text, htext⟩
    exact denotable_of_ofText? htext
  · intro h
    obtain ⟨first, rest, hspelled⟩ := h.exists_isSpelledBy
    refine ⟨String.ofList ((first :: rest).flatMap Lexeme.spell), ?_⟩
    rw [ofText?, String.toList_ofList, lexemes?_spell hspelled.whole, Option.bind_eq_bind,
      Option.bind_some, hspelled.read [] rfl]
    rfl

/-- What stands at a spot may be changed for whatever may stand there too. -/
theorem Denotable.fill {spot : Spot} {part part' : Json} {depth : Nat}
    (h : Denotable depth (spot.fill part))
    (hpart : ∀ depth, Denotable depth part → Denotable depth part') :
    Denotable depth (spot.fill part') := by
  induction spot generalizing depth with
  | here => exact hpart depth h
  | item front inner back ih =>
    cases h with
    | array hdepth hitems =>
      rw [List.forall_mem_append, List.forall_mem_cons] at hitems
      refine .array hdepth ?_
      rw [List.forall_mem_append, List.forall_mem_cons]
      exact ⟨hitems.1, ih hitems.2.1, hitems.2.2⟩
  | member front name inner back ih =>
    cases h with
    | object hdepth hmembers =>
      rw [List.forall_mem_append, List.forall_mem_cons] at hmembers
      refine .object hdepth ?_
      rw [List.forall_mem_append, List.forall_mem_cons]
      exact ⟨hmembers.1, ih hmembers.2.1, hmembers.2.2⟩

end Taskflow.Json
