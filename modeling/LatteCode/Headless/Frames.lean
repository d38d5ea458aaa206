import LatteCode.Lib.Rewriting
/- The frames of the volatile context, and the text that is put into them. -/

namespace LatteCode.Headless
open Rewriting

/-- Names of the two volatile frames. -/
def VOLATILE_FRAME_TAGS : List String := ["repository-context", "system-reminder"]

/-- `u8::is_ascii_whitespace`. -/
def isAsciiWhitespace (c : Char) : Bool := c = ' ' || c = '\t' || c = '\n' || c = '\x0c' || c = '\r'

structure FrameToken where
  closing : Bool
  tag : String
deriving DecidableEq

namespace FrameToken

def chars (token : FrameToken) : List Char :=
  '<' :: ((if token.closing then ['/'] else []) ++ (token.tag.toList ++ ['>']))

def replacement (token : FrameToken) : List Char :=
  '[' :: ((if token.closing then ['/'] else []) ++ (token.tag.toList ++ [']']))

/-- A spelling of the token: its name in any case, with whitespace behind it. -/
def Spells (token : FrameToken) (text : List Char) : Prop :=
  token.tag ∈ VOLATILE_FRAME_TAGS ∧ ∃ name spaces,
    text = '<' :: ((if token.closing then ['/'] else []) ++ (name ++ (spaces ++ ['>']))) ∧
      name.map Char.toLower = token.tag.toList ∧ ∀ c ∈ spaces, isAsciiWhitespace c = true

end FrameToken

/-- `eq_ignore_ascii_case` over the name; the tags are ASCII and in lower case. -/
def startsWithTag (probe : List Char) (tag : String) : Bool :=
  (probe.take tag.length).map Char.toLower = tag.toList

/-- The name of a token and what closes it; anything else than whitespace before `>` is no boundary. -/
def frameName (closing : Bool) (probe : List Char) : Option (FrameToken × Nat) :=
  (VOLATILE_FRAME_TAGS.find? (startsWithTag probe)).bind fun tag =>
    let rest := probe.drop tag.length
    let spaces := rest.takeWhile isAsciiWhitespace
    if (rest.dropWhile isAsciiWhitespace).head? = some '>' then some (⟨closing, tag⟩, tag.length + spaces.length + 1)
    else none

/-- The frame token at the head of a text, with its length. -/
def frameToken : List Char → Option (FrameToken × Nat)
  | [] => none
  | c :: probe =>
      if c = '<' then
        if probe.head? = some '/' then (frameName true probe.tail).map fun found => (found.1, found.2 + 2)
        else (frameName false probe).map fun found => (found.1, found.2 + 1)
      else none

def frameReader : Reader Char := fun text => (frameToken text).map fun found => (found.1.replacement, found.2)

/-- Neutralizes opening and closing tokens of both volatile frames. -/
def escapeVolatileFrames (body : String) : String := String.ofList (frameReader.rewrite body.toList)

/-- Wraps volatile body in `<tag>…</tag>`. -/
def frameVolatile (tag body : String) : String :=
  "<" ++ tag ++ ">\n" ++ escapeVolatileFrames body ++ "\n</" ++ tag ++ ">"

/-! ## What a token is -/

/-- Some frame token stands in the text. -/
def HasFrameToken (text : List Char) : Prop :=
  ∃ (token : FrameToken) (before spelling after : List Char), token.Spells spelling ∧ text = before ++ spelling ++ after

/-- The characters with a meaning of their own in a token or in its replacement. -/
def isPunctuation (c : Char) : Bool := c = '<' || c = '>' || c = '/' || c = '['

theorem name_plain {tag : String} {name : List Char} (listed : tag ∈ VOLATILE_FRAME_TAGS)
    (named : name.map Char.toLower = tag.toList) {c : Char} (member : c ∈ name) : isPunctuation c = false := by
  have letters : ∀ tag ∈ VOLATILE_FRAME_TAGS, ∀ c ∈ tag.toList, isPunctuation c = false := by
    have all : ∀ tag ∈ VOLATILE_FRAME_TAGS, tag.toList.all (fun c => !isPunctuation c) = true := by decide
    exact fun tag listed c held => Bool.not_eq_true' _ ▸ List.all_eq_true.mp (all tag listed) c held
  have lower : isPunctuation c.toLower = false :=
    letters tag listed _ (by rw [← named]; exact List.mem_map_of_mem member)
  rw [Bool.eq_false_iff]
  intro special
  have cases : ((c = '<' ∨ c = '>') ∨ c = '/') ∨ c = '[' := by
    simpa only [isPunctuation, Bool.or_eq_true, decide_eq_true_eq] using special
  rcases cases with ((rfl | rfl) | rfl) | rfl <;> exact absurd lower (by decide)

theorem startsWithTag_iff {probe : List Char} {tag : String} : startsWithTag probe tag = true ↔
    ∃ name rest, probe = name ++ rest ∧ name.map Char.toLower = tag.toList := by
  rw [startsWithTag, decide_eq_true_eq]
  constructor
  · intro same
    exact ⟨_, _, (List.take_append_drop tag.length probe).symm, same⟩
  · rintro ⟨name, rest, rfl, same⟩
    have length : name.length = tag.length := by
      rw [← List.length_map (f := Char.toLower), same, String.length_toList]
    rw [← length, List.take_left]
    exact same

/-- No text begins with both names. -/
theorem find_tag {probe : List Char} {tag : String} (listed : tag ∈ VOLATILE_FRAME_TAGS)
    (starts : startsWithTag probe tag = true) : VOLATILE_FRAME_TAGS.find? (startsWithTag probe) = some tag := by
  have tags : tag = "repository-context" ∨ tag = "system-reminder" := by
    simpa only [VOLATILE_FRAME_TAGS, List.mem_cons, List.not_mem_nil, or_false] using listed
  rcases tags with rfl | rfl
  · rw [VOLATILE_FRAME_TAGS, List.find?_cons_of_pos starts]
  · have other : startsWithTag probe "repository-context" = false := by
      rw [Bool.eq_false_iff]
      intro both
      obtain ⟨first, rest, rfl, firstName⟩ := startsWithTag_iff.mp both
      obtain ⟨second, more, same, secondName⟩ := startsWithTag_iff.mp starts
      cases first with
      | nil => cases firstName
      | cons a first =>
          cases second with
          | nil => cases secondName
          | cons b second =>
              cases (List.cons.inj same).1
              exact absurd ((List.cons.inj firstName).1.symm.trans (List.cons.inj secondName).1) (by decide)
    rw [VOLATILE_FRAME_TAGS, List.find?_cons_of_neg (by rw [other]; exact Bool.false_ne_true),
      List.find?_cons_of_pos starts]

theorem frameName_iff {closing : Bool} {probe : List Char} {token : FrameToken} {length : Nat} :
    frameName closing probe = some (token, length) ↔ token.closing = closing ∧ token.tag ∈ VOLATILE_FRAME_TAGS ∧
      ∃ name spaces rest, probe = name ++ (spaces ++ '>' :: rest) ∧ name.map Char.toLower = token.tag.toList ∧
        (∀ c ∈ spaces, isAsciiWhitespace c = true) ∧ length = name.length + spaces.length + 1 := by
  simp only [frameName, Option.bind_eq_some_iff, Option.ite_none_right_eq_some, Option.some.injEq, Prod.mk.injEq]
  constructor
  · rintro ⟨tag, found, closed, rfl, rfl⟩
    obtain ⟨name, rest, rfl, named⟩ := startsWithTag_iff.mp (List.find?_some found)
    have same : name.length = tag.length := by
      rw [← List.length_map (f := Char.toLower), named, String.length_toList]
    rw [← same, List.drop_left] at closed ⊢
    obtain ⟨tail, final⟩ := List.head?_eq_some_iff.mp closed
    refine ⟨rfl, List.mem_of_find?_eq_some found, name, rest.takeWhile isAsciiWhitespace, tail, ?_, named, ?_, rfl⟩
    · rw [← final, List.takeWhile_append_dropWhile]
    · exact fun c member => List.mem_takeWhile_imp member
  · rintro ⟨rfl, listed, name, spaces, rest, rfl, named, blank, rfl⟩
    have same : name.length = token.tag.length := by
      rw [← List.length_map (f := Char.toLower), named, String.length_toList]
    have taken : (spaces ++ '>' :: rest).takeWhile isAsciiWhitespace = spaces := by
      rw [List.takeWhile_append_of_pos blank, List.takeWhile_cons_of_neg (by decide), List.append_nil]
    refine ⟨token.tag, find_tag listed (startsWithTag_iff.mpr ⟨name, _, rfl, named⟩), ?_, rfl, ?_⟩
    · rw [← same, List.drop_left, List.dropWhile_append_of_pos blank]
      rfl
    · rw [← same, List.drop_left, taken]

/-- A token is read exactly where one is spelled. -/
theorem frameToken_iff {text : List Char} {token : FrameToken} {length : Nat} :
    frameToken text = some (token, length) ↔
      ∃ spelling after, token.Spells spelling ∧ text = spelling ++ after ∧ length = spelling.length := by
  constructor
  · intro found
    cases text with
    | nil => cases found
    | cons c probe =>
        rw [frameToken] at found
        split at found
        case isFalse => cases found
        case isTrue opened =>
          subst opened
          split at found
          case isTrue closed =>
            obtain ⟨probe, rfl⟩ := List.head?_eq_some_iff.mp closed
            obtain ⟨⟨named, count⟩, read, same⟩ := Option.map_eq_some_iff.mp found
            cases same
            obtain ⟨closing, listed, name, spaces, rest, split, spelled, blank, rfl⟩ := frameName_iff.mp read
            rw [List.tail_cons] at split
            refine ⟨'<' :: '/' :: (name ++ (spaces ++ ['>'])), rest, ⟨listed, name, spaces, ?_, spelled, blank⟩, ?_, ?_⟩
            · rw [closing]
              rfl
            · rw [split]
              simp
            · simp only [List.length_cons, List.length_append, List.length_nil]
              omega
          case isFalse =>
            obtain ⟨⟨named, count⟩, read, same⟩ := Option.map_eq_some_iff.mp found
            cases same
            obtain ⟨closing, listed, name, spaces, rest, rfl, spelled, blank, rfl⟩ := frameName_iff.mp read
            refine ⟨'<' :: (name ++ (spaces ++ ['>'])), rest, ⟨listed, name, spaces, ?_, spelled, blank⟩, ?_, ?_⟩
            · rw [closing]
              rfl
            · simp
            · simp only [List.length_cons, List.length_append, List.length_nil]
              omega
  · rintro ⟨spelling, after, ⟨listed, name, spaces, rfl, spelled, blank⟩, rfl, rfl⟩
    obtain ⟨closing, tag⟩ := token
    have read : frameName closing (name ++ (spaces ++ '>' :: after)) =
        some (⟨closing, tag⟩, name.length + spaces.length + 1) :=
      frameName_iff.mpr ⟨rfl, listed, name, spaces, after, rfl, spelled, blank, rfl⟩
    cases closing with
    | true =>
        have shape : '<' :: ((if true = true then ['/'] else []) ++ (name ++ (spaces ++ ['>']))) ++ after =
            '<' :: '/' :: (name ++ (spaces ++ '>' :: after)) := by simp
        rw [shape, frameToken, if_pos rfl, if_pos (List.head?_cons ..), List.tail_cons, read, Option.map_some]
        simp only [Option.some.injEq, Prod.mk.injEq, true_and, List.length_append, List.length_cons, List.length_nil,
          if_true]
        omega
    | false =>
        have shape : '<' :: ((if false = true then ['/'] else []) ++ (name ++ (spaces ++ ['>']))) ++ after =
            '<' :: (name ++ (spaces ++ '>' :: after)) := by simp
        -- a name does not begin with the slash of a closing token
        have opens : (name ++ (spaces ++ '>' :: after)).head? ≠ some '/' := by
          cases name with
          | nil =>
              have empty : ([] : List Char) ∈ VOLATILE_FRAME_TAGS.map String.toList :=
                List.mem_map.mpr ⟨tag, listed, spelled.symm⟩
              exact absurd empty (by decide)
          | cons c more =>
              intro slash
              cases Option.some.inj slash
              exact absurd (name_plain listed spelled List.mem_cons_self) (by decide)
        rw [shape, frameToken, if_pos rfl, if_neg opens, read, Option.map_some]
        simp only [Option.some.injEq, Prod.mk.injEq, true_and, List.length_append, List.length_cons, List.length_nil,
          Bool.false_eq_true, if_false]
        omega

theorem frameToken_some {text : List Char} : frameToken text ≠ none ↔
    ∃ (token : FrameToken) (spelling after : List Char), token.Spells spelling ∧ text = spelling ++ after := by
  rw [Option.ne_none_iff_exists']
  constructor
  · rintro ⟨⟨token, length⟩, found⟩
    obtain ⟨spelling, after, spelled, split, _⟩ := frameToken_iff.mp found
    exact ⟨token, spelling, after, spelled, split⟩
  · rintro ⟨token, spelling, after, spelled, split⟩
    exact ⟨(token, spelling.length), frameToken_iff.mpr ⟨spelling, after, spelled, split, rfl⟩⟩

/-- A spelling is delimited by its only angle brackets. -/
theorem FrameToken.Spells.shape {token : FrameToken} {spelling : List Char} (spelled : token.Spells spelling) :
    ∃ inner, spelling = '<' :: (inner ++ ['>']) ∧ ∀ c ∈ inner, c ≠ '<' ∧ c ≠ '>' ∧ c ≠ '[' := by
  obtain ⟨listed, name, spaces, rfl, named, blank⟩ := spelled
  refine ⟨(if token.closing then ['/'] else []) ++ (name ++ spaces), by simp, ?_⟩
  intro c member
  rw [List.mem_append, List.mem_append] at member
  rcases member with slash | letter | space
  · have same : c = '/' := by
      cases closing : token.closing with
      | true =>
          rw [closing, if_pos rfl, List.mem_singleton] at slash
          exact slash
      | false =>
          rw [closing, if_neg Bool.false_ne_true] at slash
          cases slash
    subst same
    decide
  · have plain := name_plain listed named letter
    refine ⟨?_, ?_, ?_⟩ <;> rintro rfl <;> exact absurd plain (by decide)
  · have blank := blank c space
    refine ⟨?_, ?_, ?_⟩ <;> rintro rfl <;> exact absurd blank (by decide)

/-- A part of a text that does not hold the next character ends before it. -/
theorem ends_before {part after before rest : List Char} {x : Char} (alien : x ∉ part)
    (same : part ++ after = before ++ x :: rest) : ∃ more, before = part ++ more := by
  rcases List.append_eq_append_iff.mp same with ⟨more, split, _⟩ | ⟨more, split, tail⟩
  · exact ⟨more, split⟩
  · cases more with
    | nil => exact ⟨[], by rw [split, List.append_nil, List.append_nil]⟩
    | cons first more =>
        cases (List.cons.inj tail).1
        exact absurd (by rw [split]; exact List.mem_append_right _ List.mem_cons_self) alien

/-- What begins with another character than `<` is no token. -/
theorem frameToken_other {c : Char} {text : List Char} (other : c ≠ '<') : frameToken (c :: text) = none := by
  rw [frameToken, if_neg other]

theorem replacement_chars {token : FrameToken} (listed : token.tag ∈ VOLATILE_FRAME_TAGS) :
    ∀ c ∈ token.replacement, c ≠ '<' := by
  obtain ⟨closing, tag⟩ := token
  have all : ∀ closing, ∀ tag ∈ VOLATILE_FRAME_TAGS,
      (FrameToken.mk closing tag).replacement.all (fun c => decide (c ≠ '<')) = true := by decide
  exact fun c held => of_decide_eq_true (List.all_eq_true.mp (all closing tag listed) c held)

theorem frameReader_marked : frameReader.Marked (· = '[') := by
  constructor
  · intro text replacement length read
    obtain ⟨found, _, same⟩ := Option.map_eq_some_iff.mp read
    cases same
    exact ⟨'[', _, rfl, rfl⟩
  · intro text replacement length read before x more split tail
    obtain ⟨⟨token, count⟩, found, same⟩ := Option.map_eq_some_iff.mp read
    cases same
    obtain ⟨_, _, spelled, _⟩ := frameToken_iff.mp found
    have other := replacement_chars spelled.1 x (by rw [split]; exact List.mem_append_right _ List.mem_cons_self)
    rw [frameReader, List.cons_append, frameToken_other other]
    rfl
  · rintro before _ after rfl token other
    have read : frameToken (before ++ '[' :: after) ≠ none := by
      intro absent
      rw [frameReader, absent] at token
      exact token rfl
    obtain ⟨found, spelling, rest, spelled, split⟩ := frameToken_some.mp read
    obtain ⟨inner, rfl, plain⟩ := spelled.shape
    have alien : '[' ∉ '<' :: (inner ++ ['>']) := by
      intro member
      rcases List.mem_cons.mp member with same | member
      · cases same
      · rcases List.mem_append.mp member with inside | last
        · exact (plain _ inside).2.2 rfl
        · cases List.mem_singleton.mp last
    obtain ⟨more, rfl⟩ := ends_before alien split.symm
    intro absent
    refine frameToken_some.mpr ⟨found, _, more ++ other, spelled, (List.append_assoc ..)⟩ ?_
    simpa only [frameReader, Option.map_eq_none_iff] using absent

theorem free_iff {text : List Char} : frameReader.Free text ↔ ¬ HasFrameToken text := by
  constructor
  · rintro free ⟨token, before, spelling, after, spelled, split⟩
    have read := free before (spelling ++ after) (by rw [split, List.append_assoc])
    rw [frameReader, Option.map_eq_none_iff] at read
    exact frameToken_some.mpr ⟨token, spelling, after, spelled, rfl⟩ read
  · intro absent before rest split
    rw [frameReader, Option.map_eq_none_iff]
    by_contra read
    obtain ⟨token, spelling, after, spelled, same⟩ := frameToken_some.mp read
    exact absent ⟨token, before, spelling, after, spelled, by rw [split, same, List.append_assoc]⟩

/-! ## Escaped text -/

theorem escaped_free (body : String) : ¬ HasFrameToken (escapeVolatileFrames body).toList := by
  rw [escapeVolatileFrames, String.toList_ofList]
  exact free_iff.mp (frameReader_marked.free rfl body.toList)

theorem escape_unframed {body : String} (absent : ¬ HasFrameToken body.toList) : escapeVolatileFrames body = body := by
  rw [escapeVolatileFrames, (free_iff.mpr absent).rewrite, String.ofList_toList]

theorem escape_idempotent (body : String) :
    escapeVolatileFrames (escapeVolatileFrames body) = escapeVolatileFrames body := escape_unframed (escaped_free body)

/-! ## Framed text -/

theorem chars_spells {token : FrameToken} (listed : token.tag ∈ VOLATILE_FRAME_TAGS) : token.Spells token.chars := by
  have lower : ∀ tag ∈ VOLATILE_FRAME_TAGS, tag.toList.map Char.toLower = tag.toList := by decide
  exact ⟨listed, token.tag.toList, [], rfl, lower _ listed, fun _ member => absurd member List.not_mem_nil⟩

/-- At one place of a text one token is read. -/
theorem FrameToken.Spells.unique {first second : FrameToken} {spelling other after rest : List Char}
    (one : first.Spells spelling) (two : second.Spells other) (same : spelling ++ after = other ++ rest) :
    first = second ∧ spelling = other := by
  have read := frameToken_iff.mpr ⟨spelling, after, one, rfl, rfl⟩
  rw [same, frameToken_iff.mpr ⟨other, rest, two, rfl, rfl⟩] at read
  obtain ⟨token, length⟩ := Prod.mk.inj (Option.some.inj read)
  exact ⟨token.symm, (List.append_inj same length.symm).1⟩

/-- A spelling begins where an angle bracket opens, so only at the start of another spelling. -/
theorem FrameToken.Spells.within {first second : FrameToken} {spelling before inner after rest : List Char}
    (one : first.Spells spelling) (two : second.Spells (before ++ inner)) (nonempty : inner ≠ [])
    (same : inner ++ rest = spelling ++ after) : before = [] := by
  obtain ⟨middle, shape, plain⟩ := two.shape
  obtain ⟨body, rfl, _⟩ := one.shape
  cases before with
  | nil => rfl
  | cons c before =>
      cases inner with
      | nil => exact absurd rfl nonempty
      | cons d inner =>
          cases (List.cons.inj same).1
          have tail := (List.cons.inj shape).2
          have opened : '<' ∈ middle ++ ['>'] := by
            rw [← tail]
            exact List.mem_append_right _ List.mem_cons_self
          rcases List.mem_append.mp opened with inside | last
          · exact absurd rfl (plain _ inside).1
          · cases List.mem_singleton.mp last

theorem frameVolatile_toList (tag body : String) : (frameVolatile tag body).toList =
    (FrameToken.mk false tag).chars ++
      ('\n' :: ((escapeVolatileFrames body).toList ++ ['\n']) ++ (FrameToken.mk true tag).chars) := by
  simp [frameVolatile, FrameToken.chars, String.toList_append]

/-- Between two frame tokens the escaped body and its line breaks hold no other. -/
theorem between_frames {body : List Char} (absent : ¬ HasFrameToken body) {token opening : FrameToken}
    {before spelling after rest : List Char} (spelled : token.Spells spelling) (opens : opening.Spells rest)
    (split : '\n' :: (body ++ ['\n']) ++ rest = before ++ (spelling ++ after)) :
    ∃ more, before = '\n' :: (body ++ ['\n']) ++ more ∧ rest = more ++ (spelling ++ after) := by
  obtain ⟨inner, rfl, plain⟩ := spelled.shape
  obtain ⟨other, rfl, _⟩ := opens.shape
  rcases List.append_eq_append_iff.mp split with ⟨more, cut, tail⟩ | ⟨more, cut, tail⟩
  · exact ⟨more, cut, tail⟩
  · cases more with
    | nil => exact ⟨[], by rw [cut, List.append_nil, List.append_nil], tail.symm⟩
    | cons c more =>
        exfalso
        cases (List.cons.inj tail).1
        -- the token is closed before the next one opens
        have alien : '<' ∉ inner ++ ['>'] := by
          intro member
          rcases List.mem_append.mp member with inside | last
          · exact (plain _ inside).1 rfl
          · cases List.mem_singleton.mp last
        have follows : inner ++ ['>'] ++ after = more ++ '<' :: (other ++ ['>']) := (List.cons.inj tail).2
        obtain ⟨gap, rfl⟩ := ends_before alien follows
        cases before with
        | nil => cases (List.cons.inj cut).1
        | cons first before =>
            have inside : body ++ ['\n'] = before ++ '<' :: (inner ++ ['>'] ++ gap) := (List.cons.inj cut).2
            rcases List.eq_nil_or_concat gap with rfl | ⟨gap, final, rfl⟩
            · have shape : body ++ ['\n'] = before ++ '<' :: inner ++ ['>'] := by rw [inside]; simp
              cases (List.append_inj' shape rfl).2
            · have shape : body ++ ['\n'] = before ++ '<' :: (inner ++ ['>']) ++ gap ++ [final] := by rw [inside]; simp
              exact absent ⟨token, before, _, gap, spelled, (List.append_inj' shape rfl).1⟩

/-- The only tokens of a frame are its own two, at its ends. -/
theorem frame_tokens {tag : String} (listed : tag ∈ VOLATILE_FRAME_TAGS) (body : String) {token : FrameToken}
    {before spelling after : List Char} (spelled : token.Spells spelling)
    (split : (frameVolatile tag body).toList = before ++ (spelling ++ after)) :
    (token = ⟨false, tag⟩ ∧ spelling = token.chars ∧ before = []) ∨
      (token = ⟨true, tag⟩ ∧ spelling = token.chars ∧ after = []) := by
  have opening : (FrameToken.mk false tag).Spells (FrameToken.mk false tag).chars := chars_spells listed
  have closing : (FrameToken.mk true tag).Spells (FrameToken.mk true tag).chars := chars_spells listed
  rw [frameVolatile_toList] at split
  rcases List.append_eq_append_iff.mp split with ⟨gap, rfl, tail⟩ | ⟨inner, cut, tail⟩
  · -- behind the opening token
    have inside := between_frames (escaped_free body) spelled closing tail
    obtain ⟨more, rfl, last⟩ := inside
    have some : spelling ++ after ≠ [] := by
      obtain ⟨_, rfl, _⟩ := spelled.shape
      exact List.cons_ne_nil _ _
    have whole : (FrameToken.mk true tag).Spells (more ++ (spelling ++ after)) := last ▸ closing
    cases spelled.within whole some (List.append_nil _)
    obtain ⟨rfl, same⟩ := spelled.unique closing (last.symm.trans (List.append_nil _).symm)
    subst same
    exact .inr ⟨rfl, rfl, List.self_eq_append_right.mp last⟩
  · cases inner with
    | nil =>
        -- the line break behind the opening token begins no token
        obtain ⟨_, rfl, _⟩ := spelled.shape
        cases (List.cons.inj tail).1
    | cons c inner =>
        have whole : (FrameToken.mk false tag).Spells (before ++ c :: inner) := cut ▸ opening
        cases spelled.within whole (List.cons_ne_nil _ _) tail.symm
        rw [List.nil_append] at cut
        rw [← cut] at tail
        obtain ⟨rfl, same⟩ := spelled.unique opening tail
        subst same
        exact .inl ⟨rfl, rfl, rfl⟩

/-- Volatile frames cannot be forged. -/
theorem frames_unforged (body : String) :
    ¬ HasFrameToken (escapeVolatileFrames body).toList ∧
      (¬ HasFrameToken body.toList → escapeVolatileFrames body = body) ∧
      escapeVolatileFrames (escapeVolatileFrames body) = escapeVolatileFrames body ∧
      ∀ tag ∈ VOLATILE_FRAME_TAGS, ∀ (token : FrameToken) (before spelling after : List Char),
        (token.Spells spelling ∧ (frameVolatile tag body).toList = before ++ (spelling ++ after)) ↔
          (token = ⟨false, tag⟩ ∧ before = [] ∧ spelling = token.chars ∧
              after = (frameVolatile tag body).toList.drop spelling.length) ∨
            (token = ⟨true, tag⟩ ∧ after = [] ∧ spelling = token.chars ∧
              before = (frameVolatile tag body).toList.take ((frameVolatile tag body).toList.length - spelling.length)) := by
  refine ⟨escaped_free body, escape_unframed, escape_idempotent body, ?_⟩
  intro tag listed token before spelling after
  have shape := frameVolatile_toList tag body
  constructor
  · rintro ⟨spelled, split⟩
    rcases frame_tokens listed body spelled split with ⟨rfl, spells, rfl⟩ | ⟨rfl, spells, rfl⟩
    · refine .inl ⟨rfl, rfl, spells, ?_⟩
      rw [split, List.nil_append, List.drop_left]
    · refine .inr ⟨rfl, rfl, spells, ?_⟩
      rw [split, List.append_nil, List.length_append, Nat.add_sub_cancel, List.take_left]
  · rintro (⟨rfl, rfl, rfl, rfl⟩ | ⟨rfl, rfl, rfl, rfl⟩)
    · refine ⟨chars_spells listed, ?_⟩
      rw [shape, List.drop_left]
      rfl
    · refine ⟨chars_spells listed, ?_⟩
      rw [shape, ← List.append_assoc, List.length_append, Nat.add_sub_cancel, List.take_left, List.append_nil]

/-- An attribute, a nested bracket and a name that the frame line cuts off are left as they are. -/
example : frameVolatile "system-reminder" "<<System-Reminder\t></repository-context>< /system-reminder>\n<system-reminder" =
    "<system-reminder>\n<[system-reminder][/repository-context]< /system-reminder>\n<system-reminder\n</system-reminder>" := by
  decide +kernel

end LatteCode.Headless
