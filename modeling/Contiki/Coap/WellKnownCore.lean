import Contiki.Coap.Blockwise

/-!
# The listing of the resources in chunks

`well_known_core_get_handler` of `er-coap-res-well-known-core.c` without
filtering.  Each request walks through all resources, skips the text before
`*offset` and stops where the buffer is full.
-/

namespace Contiki.Coap

open Contiki.Lib

/-- The strings of a `resource_t`. -/
structure RestResource where
  url : CString
  attributes : CString

def comma : UInt8 := 44
def semicolon : UInt8 := 59
def less : UInt8 := 60
def greater : UInt8 := 62

/-- `APPLICATION_LINK_FORMAT`. -/
def applicationLinkFormat : Nat := 40

/-- The variables of the loop over the resources. -/
structure ListingWalk where
  /-- The position in the overall string. -/
  strpos : Nat
  /-- The position within the buffer. -/
  bufpos : Nat
  buffer : ByteMem

namespace ListingWalk

variable (offset preferredSize : Nat)

/-- `ADD_CHAR_IF_POSSIBLE`. -/
def addChar (walk : ListingWalk) (char : UInt8) : ListingWalk :=
  if offset ≤ walk.strpos ∧ walk.bufpos < preferredSize then
    { strpos := walk.strpos + 1
      bufpos := walk.bufpos + 1
      buffer := walk.buffer.write walk.bufpos [char] }
  else { walk with strpos := walk.strpos + 1 }

/-- `snprintf(buffer + bufpos, preferred_size - bufpos + 1, "%s", text)`,
which returns the length of the text also when it cuts the text. -/
def printText (walk : ListingWalk) (text : List UInt8) : ListingWalk :=
  { walk with
    bufpos := walk.bufpos + text.length
    buffer := walk.buffer.write walk.bufpos
      (text.take (preferredSize - walk.bufpos) ++ [0]) }

/-- `ADD_STRING_IF_POSSIBLE`; `full` is the comparison of `bufpos` with
`preferred_size`, and an error is the `break`. -/
def addString (walk : ListingWalk) (string : CString)
    (full : Nat → Bool) : Except ListingWalk ListingWalk :=
  let tmplen := string.strlen
  if offset < walk.strpos + tmplen then
    let printed := walk.printText preferredSize
      (string.chars.drop (offset - walk.strpos))
    if full printed.bufpos then .error printed
    else .ok { printed with strpos := printed.strpos + tmplen }
  else .ok { walk with strpos := walk.strpos + tmplen }

/-- The part of the loop body before the path. -/
def openLink (walk : ListingWalk) : ListingWalk :=
  let walk :=
    if walk.strpos > 0 then walk.addChar offset preferredSize comma
    else walk
  let walk := walk.addChar offset preferredSize less
  walk.addChar offset preferredSize slash

/-- The part of the loop body for the attributes. -/
def addAttributes (walk : ListingWalk) (resource : RestResource) :
    Except ListingWalk ListingWalk :=
  if resource.attributes.chars ≠ [] then
    (walk.addChar offset preferredSize semicolon).addString offset
      preferredSize resource.attributes (fun bufpos => bufpos > preferredSize)
  else .ok walk

/-- The check at the end of the loop body. -/
def checkFull (walk : ListingWalk) : Except ListingWalk ListingWalk :=
  if walk.bufpos > preferredSize ∧
      ((walk.strpos : Int) - (walk.bufpos : Int) > (offset : Int)) then
    .error walk
  else .ok walk

def addResource (walk : ListingWalk) (resource : RestResource) :
    Except ListingWalk ListingWalk :=
  match (walk.openLink offset preferredSize).addString offset preferredSize
      resource.url (fun bufpos => bufpos ≥ preferredSize) with
  | .error walk => .error walk
  | .ok walk =>
      match (walk.addChar offset preferredSize greater).addAttributes offset
          preferredSize resource with
      | .error walk => .error walk
      | .ok walk => walk.checkFull offset preferredSize

/-- The loop, with whether `resource` is not null behind it. -/
def addResources : List RestResource → ListingWalk → ListingWalk × Bool
  | [], walk => (walk, false)
  | resource :: resources, walk =>
      match walk.addResource offset preferredSize resource with
      | .error walk => (walk, true)
      | .ok walk => addResources resources walk

end ListingWalk

/-- `"BlockOutOfScope"`. -/
def blockOutOfScope : List UInt8 :=
  [66, 108, 111, 99, 107, 79, 117, 116, 79, 102, 83, 99, 111, 112, 101]

/-- `well_known_core_get_handler`: the response and the new `*offset`. -/
def wellKnownCoreGetHandler (config : CoapConfig)
    (resources : List RestResource) (response : SentPacket)
    (buffer : ByteMem) (preferredSize offset : Nat) : SentPacket × Int :=
  let walked := ListingWalk.addResources offset preferredSize resources
    { strpos := 0, bufpos := 0, buffer := buffer }
  let walk := walked.1
  let response :=
    if walk.bufpos > 0 then
      (coapSetHeaderContentFormat config
        (coapSetPayload config response walk.buffer walk.bufpos).1
        applicationLinkFormat).1
    else if walk.strpos > 0 then
      (coapSetPayload config { response with code := statusBadOption }
        (ByteMem.ofList blockOutOfScope) 15).1
    else response
  (response, if walked.2 then (offset : Int) + preferredSize else -1)

/-! ## The link-format listing -/

namespace RestResource

def link (resource : RestResource) : List UInt8 :=
  less :: slash :: (resource.url.chars ++ greater ::
    if resource.attributes.chars ≠ [] then
      semicolon :: resource.attributes.chars
    else [])

end RestResource

/-- The complete listing: the links, separated by commas. -/
def listing (resources : List RestResource) : List UInt8 :=
  [comma].intercalate (resources.map RestResource.link)

/-- The comma before a link that is not the first. -/
def separator (text : List UInt8) : List UInt8 :=
  if text.length > 0 then [comma] else []

/-- A text with the links of resources behind it. -/
def withLinks (text : List UInt8) : List RestResource → List UInt8
  | [] => text
  | resource :: resources =>
      withLinks (text ++ (separator text ++ resource.link)) resources

theorem withLinks_eq_append (text : List UInt8)
    (resources : List RestResource) (nonempty : text.length > 0) :
    withLinks text resources =
      text ++ resources.flatMap fun resource => comma :: resource.link := by
  induction resources generalizing text with
  | nil =>
      exact (List.append_nil text).symm
  | cons resource resources inductionHypothesis =>
      unfold withLinks
      rw [inductionHypothesis _ (by rw [List.length_append]; omega),
        List.append_assoc]
      unfold separator
      rw [if_pos nonempty]
      rfl

theorem listing_cons (resource : RestResource)
    (resources : List RestResource) :
    listing (resource :: resources) = resource.link ++
      resources.flatMap fun resource => comma :: resource.link := by
  unfold listing
  induction resources generalizing resource with
  | nil =>
      simp [List.intercalate]
  | cons next resources inductionHypothesis =>
      have rest := inductionHypothesis next
      rw [List.map_cons] at rest ⊢
      rw [List.map_cons, List.intercalate_cons_cons, rest]
      simp

theorem withLinks_nil (resources : List RestResource) :
    withLinks [] resources = listing resources := by
  cases resources with
  | nil =>
      rfl
  | cons resource resources =>
      unfold withLinks
      have nonempty : ([] ++ (separator [] ++ resource.link)).length > 0 :=
        Nat.succ_pos _
      rw [withLinks_eq_append _ _ nonempty, listing_cons]
      rfl

theorem prefix_withLinks (text : List UInt8)
    (resources : List RestResource) :
    text <+: withLinks text resources := by
  induction resources generalizing text with
  | nil =>
      exact List.prefix_rfl
  | cons resource resources inductionHypothesis =>
      exact (List.prefix_append _ _).trans (inductionHypothesis _)

/-! ## The text in the buffer -/

section Walk

variable {offset size : Nat} {text : List UInt8} {walk : ListingWalk}

/-- The walk has passed a text, and the buffer holds what it can hold of the
text behind the offset. -/
structure Tracks (offset size : Nat) (text : List UInt8)
    (walk : ListingWalk) : Prop where
  strpos : walk.strpos = text.length
  bufpos : walk.bufpos = min size (text.length - offset)
  shown : walk.buffer.read 0 walk.bufpos = (text.drop offset).take size

theorem take_drop_append (more : List UInt8)
    (full : offset + size ≤ text.length) :
    ((text ++ more).drop offset).take size =
      (text.drop offset).take size := by
  rw [List.drop_append_of_le_length (by omega)]
  apply List.take_append_of_le_length
  rw [List.length_drop]
  omega

theorem take_drop_short (short : text.length ≤ offset) :
    (text.drop offset).take size = [] := by
  rw [List.drop_eq_nil_of_le short, List.take_nil]

theorem Tracks.addChar (tracks : Tracks offset size text walk)
    (char : UInt8) :
    Tracks offset size (text ++ [char])
      (walk.addChar offset size char) := by
  obtain ⟨strpos, bufpos, shown⟩ := tracks
  have length : (text ++ [char]).length = text.length + 1 :=
    List.length_append
  unfold ListingWalk.addChar
  split
  · next fits =>
      have position : walk.bufpos = text.length - offset := by omega
      have whole : (text.drop offset).take size = text.drop offset := by
        apply List.take_of_length_le
        rw [List.length_drop]
        omega
      refine ⟨by rw [length, strpos], by dsimp only; omega, ?_⟩
      dsimp only
      rw [ByteMem.read_add, Nat.zero_add,
        ByteMem.read_write_disjoint (by omega), shown, whole,
        List.drop_append_of_le_length (by omega)]
      rw [List.take_of_length_le (by
        rw [List.length_append, List.length_drop, List.length_singleton]
        omega)]
      exact congrArg _ (ByteMem.read_write_self _ _ [char])
  · next skipped =>
      refine ⟨by rw [length, strpos], by dsimp only; omega, ?_⟩
      by_cases before : text.length < offset
      · have empty : walk.bufpos = 0 := by omega
        dsimp only
        rw [take_drop_short (by omega), empty]
        rfl
      · rw [take_drop_append [char] (by omega)]
        exact shown

/-- The position in the buffer behind a string of which something shows. -/
def printedEnd (offset size : Nat) (text string : List UInt8) : Nat :=
  min size (text.length - offset) +
    (string.length - (offset - text.length))

theorem read_terminated (memory : ByteMem) (position : Nat)
    (bytes : List UInt8) :
    (memory.write position (bytes ++ [0])).read position bytes.length =
      bytes := by
  have written := ByteMem.read_write_self memory position (bytes ++ [0])
  rw [List.length_append, ByteMem.read_add] at written
  exact List.append_inj_left' written (ByteMem.length_read _ _ _)

/-- A string behind a full buffer is counted as if it were written. -/
theorem printText_spec (tracks : Tracks offset size text walk)
    (string : List UInt8) :
    let printed := walk.printText size
      (string.drop (offset - walk.strpos))
    printed.strpos = text.length ∧
      printed.bufpos = printedEnd offset size text string ∧
      printed.buffer.read 0 (min size printed.bufpos) =
        ((text ++ string).drop offset).take size := by
  obtain ⟨strpos, bufpos, shown⟩ := tracks
  unfold ListingWalk.printText printedEnd
  dsimp only
  rw [strpos, List.length_drop]
  refine ⟨rfl, by rw [bufpos], ?_⟩
  by_cases before : offset ≤ text.length
  · have all : offset - text.length = 0 := by omega
    rw [all, List.drop_zero, Nat.sub_zero,
      List.drop_append_of_le_length before, List.take_append]
    have shownLength : size - (text.drop offset).length =
        size - walk.bufpos := by
      rw [List.length_drop]
      omega
    rw [shownLength, ← shown]
    have split : min size (walk.bufpos + string.length) =
        walk.bufpos + (string.take (size - walk.bufpos)).length := by
      rw [List.length_take]
      omega
    rw [split, ByteMem.read_add, Nat.zero_add,
      ByteMem.read_write_disjoint (by omega)]
    rw [read_terminated]
  · have nothing : walk.bufpos = 0 := by omega
    have dropped : (text ++ string).drop offset =
        string.drop (offset - text.length) := by
      rw [List.drop_append, List.drop_eq_nil_of_le (by omega),
        List.nil_append]
    have split : min size (0 + (string.length - (offset - text.length))) =
        ((string.drop (offset - text.length)).take size).length := by
      rw [List.length_take, List.length_drop, Nat.zero_add]
    rw [nothing, dropped, split, Nat.sub_zero, read_terminated]

theorem addString_ok {string : CString} {full : Nat → Bool}
    (tracks : Tracks offset size text walk)
    (atMost : ∀ bufpos, full bufpos = false → bufpos ≤ size)
    {after : ListingWalk}
    (isOk : walk.addString offset size string full = .ok after) :
    Tracks offset size (text ++ string.chars) after ∧
      (text.length + string.strlen ≤ offset ∨
        full (printedEnd offset size text string.chars) = false) := by
  have length : (text ++ string.chars).length =
      text.length + string.strlen := List.length_append
  have strpos := tracks.strpos
  unfold ListingWalk.addString at isOk
  dsimp only at isOk
  rw [strpos] at isOk
  by_cases shows : offset < text.length + string.strlen
  · obtain ⟨isStrpos, isBufpos, shown⟩ := printText_spec tracks string.chars
    rw [strpos] at isStrpos isBufpos shown
    rw [if_pos shows, isBufpos] at isOk
    cases isFull : full (printedEnd offset size text string.chars) with
    | true =>
        rw [isFull, if_pos rfl] at isOk
        cases isOk
    | false =>
        rw [isFull, if_neg Bool.false_ne_true] at isOk
        have bound := atMost _ isFull
        cases isOk
        rw [isBufpos, Nat.min_eq_right bound] at shown
        refine ⟨⟨?_, ?_, ?_⟩, Or.inr rfl⟩
        · exact (congrArg (· + string.strlen) isStrpos).trans length.symm
        · change printedEnd offset size text string.chars = _
          rw [length]
          unfold printedEnd at bound ⊢
          unfold CString.strlen at shows ⊢
          omega
        · exact shown
  · rw [if_neg shows] at isOk
    cases isOk
    refine ⟨⟨length.symm, ?_, ?_⟩, Or.inl (by omega)⟩
    · have bufpos := tracks.bufpos
      change walk.bufpos = _
      omega
    · have shown := tracks.shown
      rw [take_drop_short (by omega)] at shown ⊢
      exact shown

theorem addString_error {string : CString} {full : Nat → Bool}
    (tracks : Tracks offset size text walk)
    (atLeast : ∀ bufpos, full bufpos = true → size ≤ bufpos)
    {after : ListingWalk}
    (isError : walk.addString offset size string full = .error after) :
    offset < text.length + string.strlen ∧
      full (printedEnd offset size text string.chars) = true ∧
      after.bufpos = printedEnd offset size text string.chars ∧
      after.buffer.read 0 size =
        ((text ++ string.chars).drop offset).take size := by
  have strpos := tracks.strpos
  unfold ListingWalk.addString at isError
  dsimp only at isError
  rw [strpos] at isError
  by_cases shows : offset < text.length + string.strlen
  · obtain ⟨_, isBufpos, shown⟩ := printText_spec tracks string.chars
    rw [strpos] at isBufpos shown
    rw [if_pos shows, isBufpos] at isError
    cases isFull : full (printedEnd offset size text string.chars) with
    | true =>
        rw [isFull, if_pos rfl] at isError
        cases isError
        rw [isBufpos, Nat.min_eq_left (atLeast _ isFull)] at shown
        exact ⟨shows, rfl, isBufpos, shown⟩
    | false =>
        rw [isFull, if_neg Bool.false_ne_true] at isError
        cases isError
  · rw [if_neg shows] at isError
    cases isError

/-! ## One resource -/

/-- A text with the beginning of the next link up to its path. -/
def opened (text : List UInt8) : List UInt8 :=
  text ++ separator text ++ [less] ++ [slash]

/-- The part of a link behind the bracket. -/
def attributesText (resource : RestResource) : List UInt8 :=
  if resource.attributes.chars ≠ [] then
    semicolon :: resource.attributes.chars
  else []

theorem withLink_eq (text : List UInt8) (resource : RestResource) :
    text ++ (separator text ++ resource.link) =
      opened text ++ resource.url.chars ++ [greater] ++
        attributesText resource := by
  unfold opened RestResource.link attributesText
  simp only [List.append_assoc, List.cons_append, List.nil_append]

theorem Tracks.openLink (tracks : Tracks offset size text walk) :
    Tracks offset size (opened text) (walk.openLink offset size) := by
  have separated : Tracks offset size (text ++ separator text)
      (if walk.strpos > 0 then walk.addChar offset size comma
        else walk) := by
    unfold separator
    rw [tracks.strpos]
    by_cases first : text.length > 0
    · rw [if_pos first, if_pos first]
      exact tracks.addChar comma
    · rw [if_neg first, if_neg first, List.append_nil]
      exact tracks
  exact (separated.addChar less).addChar slash

variable {resource : RestResource}

theorem addAttributes_ok (tracks : Tracks offset size text walk)
    (inside : text.length ≤ offset + size) {after : ListingWalk}
    (isOk : walk.addAttributes offset size resource = .ok after) :
    Tracks offset size (text ++ attributesText resource) after ∧
      (text ++ attributesText resource).length ≤ offset + size := by
  unfold ListingWalk.addAttributes at isOk
  unfold attributesText
  by_cases some : resource.attributes.chars ≠ []
  · rw [if_pos some] at isOk ⊢
    have positive := List.length_pos_of_ne_nil some
    obtain ⟨tracked, notFull⟩ := addString_ok (tracks.addChar semicolon)
      (fun bufpos notFull => by simpa using notFull) isOk
    have split : text ++ semicolon :: resource.attributes.chars =
        text ++ [semicolon] ++ resource.attributes.chars := by
      simp
    rw [split]
    refine ⟨tracked, ?_⟩
    have length : (text ++ [semicolon]).length = text.length + 1 :=
      List.length_append
    rw [List.length_append]
    unfold printedEnd CString.strlen at notFull
    simp only [gt_iff_lt, decide_eq_false_iff_not] at notFull
    omega
  · rw [if_neg some] at isOk ⊢
    cases isOk
    rw [List.append_nil]
    exact ⟨tracks, inside⟩

theorem addAttributes_error (tracks : Tracks offset size text walk)
    (inside : text.length ≤ offset + size) {after : ListingWalk}
    (isError : walk.addAttributes offset size resource = .error after) :
    offset + size < (text ++ attributesText resource).length ∧
      size < after.bufpos ∧
      after.buffer.read 0 size =
        ((text ++ attributesText resource).drop offset).take size := by
  unfold ListingWalk.addAttributes at isError
  unfold attributesText
  by_cases some : resource.attributes.chars ≠ []
  · rw [if_pos some] at isError ⊢
    obtain ⟨shows, full, bufpos, shown⟩ := addString_error
      (tracks.addChar semicolon)
      (fun bufpos full => Nat.le_of_lt (by simpa using full)) isError
    have split : text ++ semicolon :: resource.attributes.chars =
        text ++ [semicolon] ++ resource.attributes.chars := by
      simp
    rw [split]
    have length : (text ++ [semicolon]).length = text.length + 1 :=
      List.length_append
    rw [bufpos]
    simp only [gt_iff_lt, decide_eq_true_iff] at full
    refine ⟨?_, full, shown⟩
    rw [List.length_append]
    unfold printedEnd at full
    unfold CString.strlen at shows
    omega
  · rw [if_neg some] at isError
    cases isError

/-- The position behind the path of the next resource. -/
def urlEnd (strpos : Nat) (resource : RestResource) : Nat :=
  strpos + (if strpos > 0 then 1 else 0) + 2 + resource.url.strlen

/-- A boundary lies behind the path of a resource, or before a path that is
empty. -/
def UrlStops (boundary strpos : Nat) (resource : RestResource) : Prop :=
  boundary = urlEnd strpos resource ∨
    (resource.url.chars = [] ∧ strpos ≤ boundary ∧
      boundary ≤ urlEnd strpos resource)

theorem length_opened (text : List UInt8) :
    (opened text).length =
      text.length + (if text.length > 0 then 1 else 0) + 2 := by
  unfold opened separator
  split
  · simp only [List.length_append, List.length_singleton]
  · simp only [List.length_append, List.length_singleton, List.length_nil]

theorem addUrl_ok (positive : 0 < size)
    (tracks : Tracks offset size text walk) {walked : ListingWalk}
    (isWalked : (walk.openLink offset size).addString offset size
      resource.url (fun bufpos => bufpos ≥ size) = .ok walked) :
    Tracks offset size (opened text ++ resource.url.chars ++ [greater])
        (walked.addChar offset size greater) ∧
      (opened text ++ resource.url.chars ++ [greater]).length ≤
        offset + size := by
  obtain ⟨tracked, notFull⟩ := addString_ok tracks.openLink
    (fun bufpos notFull => Nat.le_of_lt (by simpa using notFull)) isWalked
  refine ⟨tracked.addChar greater, ?_⟩
  rw [List.length_append, List.length_append, List.length_singleton]
  simp only [ge_iff_le, decide_eq_false_iff_not] at notFull
  unfold printedEnd CString.strlen at notFull
  omega

theorem addResource_ok (positive : 0 < size)
    (tracks : Tracks offset size text walk) {after : ListingWalk}
    (isOk : walk.addResource offset size resource = .ok after) :
    let linked := text ++ (separator text ++ resource.link)
    Tracks offset size linked after ∧ linked.length ≤ offset + size ∧
      urlEnd text.length resource < offset + size := by
  intro linked
  have length := length_opened text
  change Tracks offset size (text ++ (separator text ++ resource.link))
    after ∧ (text ++ (separator text ++ resource.link)).length ≤ _ ∧ _
  rw [withLink_eq]
  unfold ListingWalk.addResource at isOk
  split at isOk
  · cases isOk
  next walked isWalked =>
  obtain ⟨closed, closedInside⟩ := addUrl_ok positive tracks isWalked
  split at isOk
  · cases isOk
  next filled isFilled =>
  obtain ⟨attributed, inside⟩ := addAttributes_ok closed closedInside
    isFilled
  unfold ListingWalk.checkFull at isOk
  have notBehind : ¬ filled.bufpos > size := by
    have bufpos := attributed.bufpos
    omega
  rw [if_neg (fun behind => notBehind behind.1)] at isOk
  cases isOk
  refine ⟨attributed, inside, ?_⟩
  rw [List.length_append, List.length_append,
    List.length_singleton] at closedInside
  unfold urlEnd CString.strlen
  omega

theorem addResource_error (positive : 0 < size)
    (tracks : Tracks offset size text walk)
    (inside : text.length ≤ offset + size) {after : ListingWalk}
    (isError : walk.addResource offset size resource = .error after) :
    let linked := text ++ (separator text ++ resource.link)
    offset + size < linked.length ∧ size ≤ after.bufpos ∧
      after.buffer.read 0 size = (linked.drop offset).take size ∧
      (after.bufpos = size ↔
        UrlStops (offset + size) text.length resource) := by
  intro linked
  have length := length_opened text
  have isEnd : urlEnd text.length resource =
      (opened text).length + resource.url.chars.length := by
    unfold urlEnd CString.strlen
    omega
  change offset + size < (text ++ (separator text ++ resource.link)).length ∧
    _ ∧ _ = ((text ++ (separator text ++ resource.link)).drop offset).take
      size ∧ _
  rw [withLink_eq]
  unfold UrlStops
  rw [isEnd]
  unfold ListingWalk.addResource at isError
  split at isError
  · next walked isWalked =>
      cases isError
      obtain ⟨shows, full, bufpos, shown⟩ := addString_error
        tracks.openLink (fun bufpos full => by simpa using full) isWalked
      simp only [ge_iff_le, decide_eq_true_iff] at full
      have isBufpos := bufpos
      unfold printedEnd at isBufpos
      unfold CString.strlen at shows
      have emptyLength : resource.url.chars = [] ↔
          resource.url.chars.length = 0 := List.length_eq_zero_iff.symm
      have reached : offset + size ≤
          (opened text ++ resource.url.chars).length := by
        rw [List.length_append]
        omega
      refine ⟨?_, by omega, ?_, ?_⟩
      · simp only [List.length_append, List.length_singleton]
        rw [List.length_append] at reached
        omega
      · rw [shown, List.append_assoc (opened text ++ resource.url.chars),
          take_drop_append _ reached]
      · rw [emptyLength]
        omega
  next walked isWalked =>
  obtain ⟨closed, closedInside⟩ := addUrl_ok positive tracks isWalked
  split at isError
  · next filled isFilled =>
      cases isError
      obtain ⟨outside, behind, shown⟩ := addAttributes_error closed
        closedInside isFilled
      refine ⟨outside, Nat.le_of_lt behind, shown, ?_⟩
      rw [List.length_append, List.length_append,
        List.length_singleton] at closedInside
      omega
  · next filled isFilled =>
      have bufpos := (addAttributes_ok closed closedInside
        isFilled).1.bufpos
      unfold ListingWalk.checkFull at isError
      rw [if_neg (fun behind => by omega)] at isError
      cases isError

/-! ## The walk -/

/-- A boundary at which the text in the buffer ends with the buffer. -/
def StopsAtUrl (boundary : Nat) : Nat → List RestResource → Prop
  | _, [] => False
  | strpos, resource :: resources =>
      UrlStops boundary strpos resource ∨
        StopsAtUrl boundary
          (strpos + (if strpos > 0 then 1 else 0) + resource.link.length)
          resources

theorem length_withLink (text : List UInt8) (resource : RestResource) :
    (text ++ (separator text ++ resource.link)).length =
      text.length + (if text.length > 0 then 1 else 0) +
        resource.link.length := by
  unfold separator
  rw [List.length_append, List.length_append]
  split
  · exact (Nat.add_assoc _ _ _).symm
  · exact (Nat.add_assoc _ _ _).symm

theorem not_stopsAtUrl {boundary : Nat} {strpos : Nat}
    (resources : List RestResource) (behind : boundary < strpos) :
    ¬ StopsAtUrl boundary strpos resources := by
  induction resources generalizing strpos with
  | nil =>
      exact id
  | cons resource resources inductionHypothesis =>
      intro stops
      cases stops with
      | inl here =>
          unfold UrlStops urlEnd at here
          omega
      | inr later =>
          exact inductionHypothesis (by omega) later

/-- A walk that comes to the end of the resources shows the rest of the
listing. -/
theorem addResources_done (positive : 0 < size)
    {resources : List RestResource}
    (tracks : Tracks offset size text walk)
    (inside : text.length ≤ offset + size)
    (isDone : (ListingWalk.addResources offset size resources walk).2 =
      false) :
    Tracks offset size (withLinks text resources)
        (ListingWalk.addResources offset size resources walk).1 ∧
      (withLinks text resources).length ≤ offset + size := by
  induction resources generalizing text walk with
  | nil =>
      exact ⟨tracks, inside⟩
  | cons resource resources inductionHypothesis =>
      unfold ListingWalk.addResources at isDone ⊢
      split at isDone
      · cases isDone
      · next after isAfter =>
          obtain ⟨tracked, within, -⟩ :=
            addResource_ok positive tracks isAfter
          exact inductionHypothesis tracked within isDone

theorem addResources_stopped (positive : 0 < size)
    {resources : List RestResource}
    (tracks : Tracks offset size text walk)
    (inside : text.length ≤ offset + size)
    (isStopped : (ListingWalk.addResources offset size resources walk).2 =
      true) :
    let after := (ListingWalk.addResources offset size resources walk).1
    offset + size < (withLinks text resources).length ∧
      size ≤ after.bufpos ∧
      after.buffer.read 0 size =
        ((withLinks text resources).drop offset).take size ∧
      (after.bufpos = size ↔
        StopsAtUrl (offset + size) text.length resources) := by
  induction resources generalizing text walk with
  | nil =>
      cases isStopped
  | cons resource resources inductionHypothesis =>
      have length := length_withLink text resource
      unfold ListingWalk.addResources at isStopped ⊢
      unfold StopsAtUrl withLinks
      rw [← length]
      split at isStopped
      · next after isAfter =>
          obtain ⟨outside, full, shown, stops⟩ :=
            addResource_error positive tracks inside isAfter
          obtain ⟨more, isMore⟩ := prefix_withLinks
            (text ++ (separator text ++ resource.link)) resources
          refine ⟨?_, full, ?_, ?_⟩
          · rw [← isMore, List.length_append]
            omega
          · rw [← isMore, take_drop_append more (Nat.le_of_lt outside)]
            exact shown
          · rw [or_iff_left (not_stopsAtUrl resources outside)]
            exact stops
      · next after isAfter =>
          obtain ⟨tracked, within, before⟩ :=
            addResource_ok positive tracks isAfter
          have here : ¬ UrlStops (offset + size) text.length resource := by
            unfold UrlStops
            omega
          rw [or_iff_right here]
          exact inductionHypothesis tracked within isStopped

end Walk

/-! ## One request -/

section Request

variable {config : CoapConfig} {resources : List RestResource}
  {response : SentPacket} {buffer : ByteMem} {size offset : Nat}

def chunkOf (response : SentPacket) : List UInt8 :=
  response.payload.read 0 response.payloadLen

theorem tracks_start (size offset : Nat) (buffer : ByteMem) :
    Tracks offset size [] { strpos := 0, bufpos := 0, buffer := buffer } :=
  ⟨rfl, by simp, by simp⟩

/-- The payload is the part of the buffer that fits in a chunk. -/
theorem chunkOf_handler (config : CoapConfig)
    (resources : List RestResource) (response : SentPacket)
    (buffer : ByteMem) (size offset : Nat) :
    let walk := (ListingWalk.addResources offset size resources
      { strpos := 0, bufpos := 0, buffer := buffer }).1
    0 < walk.bufpos →
      chunkOf (wellKnownCoreGetHandler config resources response buffer
          size offset).1 =
        walk.buffer.read 0 (min config.restMaxChunkSize walk.bufpos) := by
  intro walk some
  unfold wellKnownCoreGetHandler
  dsimp only
  rw [if_pos some]
  rfl

theorem handler_done (positive : 0 < size)
    (fits : size ≤ config.restMaxChunkSize)
    (fresh : response.payloadLen = 0)
    (start : offset < (listing resources).length ∨ offset = 0)
    (last : (listing resources).length ≤ offset + size) :
    let answered := wellKnownCoreGetHandler config resources response
      buffer size offset
    answered.2 = -1 ∧
      chunkOf answered.1 = (listing resources).drop offset := by
  cases isDone : (ListingWalk.addResources offset size resources
      { strpos := 0, bufpos := 0, buffer := buffer }).2 with
  | true =>
      have stopped := (addResources_stopped positive
        (tracks_start size offset buffer) (Nat.zero_le _) isDone).1
      rw [withLinks_nil] at stopped
      omega
  | false =>
      obtain ⟨tracks, inside⟩ := addResources_done positive
        (tracks_start size offset buffer) (Nat.zero_le _) isDone
      rw [withLinks_nil] at tracks inside
      obtain ⟨strpos, bufpos, shown⟩ := tracks
      rw [List.take_of_length_le (by
        rw [List.length_drop]
        omega)] at shown
      intro answered
      have next : answered.2 = -1 := by
        change (if _ then _ else _) = _
        rw [isDone]
        rfl
      refine ⟨next, ?_⟩
      by_cases total : (listing resources).length = 0
      · have same : answered.1 = response := by
          change (if _ then _ else if _ then _ else _) = _
          rw [if_neg (by omega), if_neg (by omega)]
        unfold chunkOf
        rw [same, fresh, List.length_eq_zero_iff.mp total, List.drop_nil]
        rfl
      · have chunk : chunkOf answered.1 = _ := chunkOf_handler config
          resources response buffer size offset (by omega)
        rw [chunk, Nat.min_eq_right (by omega)]
        exact shown

/-- Any other chunk shows the next bytes of the listing, and the size says
whether it shows more. -/
theorem handler_stopped (positive : 0 < size)
    (fits : size ≤ config.restMaxChunkSize)
    (more : offset + size < (listing resources).length) :
    let answered := wellKnownCoreGetHandler config resources response
      buffer size offset
    answered.2 = ((offset + size : Nat) : Int) ∧
      (chunkOf answered.1).take size =
        ((listing resources).drop offset).take size ∧
      ((chunkOf answered.1).length ≤ size ↔
        size = config.restMaxChunkSize ∨
          StopsAtUrl (offset + size) 0 resources) := by
  cases isStopped : (ListingWalk.addResources offset size resources
      { strpos := 0, bufpos := 0, buffer := buffer }).2 with
  | false =>
      have done := (addResources_done positive
        (tracks_start size offset buffer) (Nat.zero_le _) isStopped).2
      rw [withLinks_nil] at done
      omega
  | true =>
      obtain ⟨outside, full, shown, stops⟩ := addResources_stopped positive
        (tracks_start size offset buffer) (Nat.zero_le _) isStopped
      rw [withLinks_nil] at shown
      intro answered
      have chunk : chunkOf answered.1 = _ := chunkOf_handler config
        resources response buffer size offset (by omega)
      have next : answered.2 = ((offset + size : Nat) : Int) := by
        change (if _ then _ else _) = _
        rw [if_pos isStopped]
        rfl
      rw [chunk]
      refine ⟨next, ?_, ?_⟩
      · have kept : min (min config.restMaxChunkSize
            (ListingWalk.addResources offset size resources
              { strpos := 0, bufpos := 0, buffer := buffer }).1.bufpos)
            size = size := by
          omega
        rw [take_read, kept]
        exact shown
      · change _ ↔ _ ∨ StopsAtUrl _ ([] : List UInt8).length _
        rw [ByteMem.length_read, ← stops]
        omega

end Request

/-! ## Fetching the listing -/

/-- What a request finds: the buffer of its transaction, and the type and
the message identifier of its response. -/
structure ChunkRequest where
  buffer : ByteMem
  type : CoapMessageType
  mid : UInt16

/-- The chunks of a client that continues at the returned offset until it is
-1, for at most `fuel` requests. -/
def fetch (config : CoapConfig) (resources : List RestResource)
    (preferredSize : Nat) (requests : Nat → ChunkRequest) :
    Nat → Nat → Nat → Option (List (List UInt8))
  | 0, _, _ => none
  | fuel + 1, count, offset =>
      let request := requests count
      let answered := wellKnownCoreGetHandler config resources
        (coapInitMessage request.type statusContent request.mid)
        request.buffer preferredSize offset
      if answered.2 = -1 then some [chunkOf answered.1]
      else
        (fetch config resources preferredSize requests fuel
          (count + (1 : Nat)) answered.2.toNat).map
            (chunkOf answered.1 :: ·)

section Fetch

variable {config : CoapConfig} {resources : List RestResource} {size : Nat}

/-- The client gets the rest of the listing, and the boundaries say whether
a chunk is longer than the size. -/
theorem fetch_spec (positive : 0 < size)
    (fits : size ≤ config.restMaxChunkSize)
    (requests : Nat → ChunkRequest) (fuel count : Nat) {offset : Nat}
    (start : offset < (listing resources).length ∨ offset = 0)
    (enough : (listing resources).length - offset < fuel) :
    ∃ chunks, fetch config resources size requests fuel count offset =
        some chunks ∧
      (chunks.map (List.take size)).flatten =
        (listing resources).drop offset ∧
      ((∀ chunk ∈ chunks, chunk.length ≤ size) ↔
        ∀ index, offset + (index + 1) * size < (listing resources).length →
          size = config.restMaxChunkSize ∨
            StopsAtUrl (offset + (index + 1) * size) 0 resources) := by
  induction fuel generalizing count offset with
  | zero =>
      omega
  | succ fuel inductionHypothesis =>
      unfold fetch
      dsimp only
      by_cases last : (listing resources).length ≤ offset + size
      · obtain ⟨next, chunk⟩ := @handler_done config resources
          (coapInitMessage (requests count).type statusContent
            (requests count).mid)
          (requests count).buffer size offset positive fits rfl start last
        rw [if_pos next, chunk]
        refine ⟨_, rfl, ?_, iff_of_true ?_ ?_⟩
        · rw [List.map_singleton, List.flatten_singleton]
          apply List.take_of_length_le
          rw [List.length_drop]
          omega
        · intro chunk member
          rw [List.mem_singleton.mp member, List.length_drop]
          omega
        · intro index inside
          rw [Nat.succ_mul] at inside
          omega
      · obtain ⟨next, shown, short⟩ := @handler_stopped config
          resources
          (coapInitMessage (requests count).type statusContent
            (requests count).mid)
          (requests count).buffer size offset positive fits
          (Nat.lt_of_not_le last)
        obtain ⟨chunks, fetched, rest, boundaries⟩ :=
          @inductionHypothesis (count + 1) (offset + size)
            (Or.inl (by omega)) (by omega)
        rw [next, if_neg (by omega), Int.toNat_natCast, fetched]
        refine ⟨_, rfl, ?_, ?_⟩
        · rw [List.map_cons, List.flatten_cons, rest, shown,
            ← List.drop_drop]
          exact List.take_append_drop _ _
        · rw [List.forall_mem_cons, short, boundaries]
          constructor
          · intro both index inside
            cases index with
            | zero =>
                rw [Nat.zero_add, Nat.one_mul]
                exact both.1
            | succ index =>
                have shift : offset + (index + 1 + 1) * size =
                    offset + size + (index + 1) * size := by
                  rw [Nat.succ_mul (index + 1)]
                  omega
                rw [shift] at inside ⊢
                exact both.2 index inside
          · intro all
            constructor
            · have first := all 0
              rw [Nat.zero_add, Nat.one_mul] at first
              exact first (Nat.lt_of_not_le last)
            · intro index inside
              have shift : offset + (index + 1 + 1) * size =
                  offset + size + (index + 1) * size := by
                rw [Nat.succ_mul (index + 1)]
                omega
              have later := all (index + 1)
              rw [shift] at later
              exact later inside

/-- The client gets the listing in chunks of at most the preferred size. -/
def Delivers (config : CoapConfig) (resources : List RestResource)
    (preferredSize : Nat) (requests : Nat → ChunkRequest) : Prop :=
  ∃ chunks, fetch config resources preferredSize requests
      ((listing resources).length + (1 : Nat)) 0 0 = some chunks ∧
    chunks.flatten = listing resources ∧
    ∀ chunk ∈ chunks, chunk.length ≤ preferredSize

theorem map_take_of_short {chunks : List (List UInt8)}
    (short : ∀ chunk ∈ chunks, chunk.length ≤ size) :
    chunks.map (List.take size) = chunks := by
  refine (List.map_congr_left fun chunk member => ?_).trans
    (List.map_id chunks)
  exact List.take_of_length_le (short chunk member)

/-- The listing arrives in chunks of the preferred size exactly when that is
the size of the buffer, or the walk stops exactly at the end of the buffer at
each boundary. -/
theorem delivers_iff (config : CoapConfig) (resources : List RestResource)
    (size : Nat) (requests : Nat → ChunkRequest) (positive : 1 ≤ size)
    (fits : size ≤ config.restMaxChunkSize) :
    Delivers config resources size requests ↔
      size = config.restMaxChunkSize ∨
        ∀ index, (index + 1) * size < (listing resources).length →
          StopsAtUrl ((index + 1) * size) 0 resources := by
  obtain ⟨chunks, fetched, cut, boundaries⟩ := @fetch_spec config resources
    size positive fits requests ((listing resources).length + 1) 0 0
      (Or.inr rfl) (by omega)
  have split : (∀ chunk ∈ chunks, chunk.length ≤ size) ↔
      size = config.restMaxChunkSize ∨
        ∀ index, (index + 1) * size < (listing resources).length →
          StopsAtUrl ((index + 1) * size) 0 resources := by
    rw [boundaries]
    simp only [Nat.zero_add]
    by_cases whole : size = config.restMaxChunkSize
    · exact iff_of_true (fun _ _ => Or.inl whole) (Or.inl whole)
    · simp only [whole, false_or]
  rw [← split]
  unfold Delivers
  rw [fetched]
  constructor
  · intro delivered
    obtain ⟨same, isSame, _, short⟩ := delivered
    cases isSame
    exact short
  · intro short
    refine ⟨chunks, rfl, ?_, short⟩
    rw [map_take_of_short short] at cut
    exact cut

end Fetch

theorem nil_ne_zero : ∀ char ∈ ([] : List UInt8), char ≠ 0 := by
  intro char member
  cases member

theorem light_ne_zero :
    ∀ char ∈ ([108, 105, 103, 104, 116] : List UInt8), char ≠ 0 := by
  decide

/-- The listing of this resource is `</light>`. -/
def lightResource : RestResource where
  url :=
    { chars := [108, 105, 103, 104, 116]
      chars_ne_zero := light_ne_zero
      after := fun _ => 0 }
  attributes :=
    { chars := [], chars_ne_zero := nil_ne_zero, after := fun _ => 0 }

def emptyRequest : ChunkRequest where
  buffer := fun _ => 0
  type := .ack
  mid := 1

/-- Seven bytes are a boundary behind the path. -/
theorem lightResource_delivers :
    Delivers CoapConfig.erConf [lightResource] 7 (fun _ => emptyRequest) :=
  (delivers_iff CoapConfig.erConf [lightResource] 7 (fun _ => emptyRequest)
    (by decide) (by decide)).mpr (Or.inr fun index inside => by
      have length : (listing [lightResource]).length = 8 := rfl
      rw [length] at inside
      have first : index = 0 := by omega
      rw [first]
      exact Or.inl (Or.inl rfl))

/-- Four bytes cut the path, and the first chunk has seven bytes. -/
theorem lightResource_not_delivers :
    ¬ Delivers CoapConfig.erConf [lightResource] 4
      (fun _ => emptyRequest) := by
  intro delivered
  obtain ⟨chunks, fetched, -, short⟩ := delivered
  have lengths : (fetch CoapConfig.erConf [lightResource] 4
      (fun _ => emptyRequest) ((listing [lightResource]).length + 1) 0
        0).map (List.map List.length) = some [7, 4] := by
    decide +kernel
  rw [fetched, Option.map_some, Option.some.injEq] at lengths
  have tooLong : 7 ∈ chunks.map List.length := by
    rw [lengths]
    exact List.mem_cons_self
  obtain ⟨chunk, member, isSeven⟩ := List.mem_map.mp tooLong
  have bound := short chunk member
  omega

end Contiki.Coap
