import Xlsx.Markup.Attribute
import Xlsx.Markup.Entity

/-! # Scanning a document

From octets to events. Text runs up to the next `<`; a tag runs to the next `>` outside quotation
marks; an end tag, an instruction, a comment, a literal section and a document type each have an end
of their own. A tag that is still open when the octets end is taken as closed there, and elements
still open are no fault. Data that break off instead of ending are one, as soon as an octet is missed.

The octets arrive in portions. Where one portion ends and the next begins makes no difference, but in
a document type: its angle brackets are counted within one portion only. -/

namespace Xlsx.Markup

/-- The octets of a document in the portions in which they arrive; they may break off in the middle
of what was stored. -/
structure Source where
  portions : List (List UInt8)
  breaksOff : Bool := false

/-- For each portion how many octets there are from its start on, which is less and less. -/
def starts : List (List UInt8) → List Nat
  | [] => []
  | p :: ps => (p.length + (starts ps).headD 0) :: starts ps

/-- Octets up to the first `stop`, and those after it, if it occurs. -/
def splitAt (stop : UInt8) (bs : List UInt8) : List UInt8 × Option (List UInt8) :=
  match bs.dropWhile (· != stop) with
  | _ :: rest => (bs.takeWhile (· != stop), some rest)
  | [] => (bs, none)

/-- Octets up to the first `>` before which `done` holds of the octets passed, the last first. -/
def splitWhen (done : List UInt8 → Bool) (passed : List UInt8) :
    List UInt8 → Option (List UInt8 × List UInt8)
  | [] => none
  | b :: bs =>
    if b = 0x3E ∧ done passed then some (passed.reverse, bs) else splitWhen done (b :: passed) bs

/-- Octets up to the first `>` outside quotation marks, and those after it, if there is one. `quote`
is the mark that is open, if any. -/
def splitTag (quote : Option UInt8) (passed : List UInt8) :
    List UInt8 → List UInt8 × Option (List UInt8)
  | [] => (passed.reverse, none)
  | b :: bs =>
    match quote with
    | none =>
      if b = 0x3E then (passed.reverse, some bs)
      else splitTag (if isQuote b then some b else none) (b :: passed) bs
    | some q => splitTag (if b = q then none else some q) (b :: passed) bs

/-- Whether a comment may end here: two hyphens, behind the two that begin it. -/
def closesComment : List UInt8 → Bool
  | 0x2D :: 0x2D :: _ :: _ :: _ => true
  | _ => false

/-- Whether a literal section may end here: two closing brackets. -/
def closesLiteral : List UInt8 → Bool
  | 0x5D :: 0x5D :: _ => true
  | _ => false

/-- How an octet changes the number of open angle brackets. -/
def bracketStep (b : UInt8) : Int := if b = 0x3C then 1 else if b = 0x3E then -1 else 0

/-- How many angle brackets are open where `left` octets are to come: none where the next portion
starts, and else `depth`. -/
def openBrackets (starts : List Nat) (left : Nat) (depth : Int) : Int :=
  if starts.head? = some left then 0 else depth

/-- Octets up to the first `>` at which no angle bracket is open, and those after it, if `left` octets
are to come and `depth` brackets are open. -/
def splitDocumentType (starts : List Nat) (left : Nat) (depth : Int) (passed : List UInt8) :
    List UInt8 → Option (List UInt8 × List UInt8)
  | [] => none
  | b :: bs =>
    -- The portions that start before this place are passed.
    let starts := starts.dropWhile (left < ·)
    let depth := openBrackets starts left depth
    if b = 0x3E ∧ depth = 0 then some (passed.reverse, bs)
    else splitDocumentType starts (left - 1) (depth + bracketStep b) (b :: passed) bs

/-- An ASCII letter in lower case. -/
def lowerOctet (b : UInt8) : UInt8 := if 0x41 ≤ b ∧ b ≤ 0x5A then b + 0x20 else b

/-- What follows a keyword, given in lower case, when the octets begin with it in any case. -/
def afterKeyword? (keyword : String) (bs : List UInt8) : Option (List UInt8) :=
  let n := keyword.utf8ByteSize
  if (bs.take n).map lowerOctet = Text.octets keyword then some (bs.drop n) else none

/-- The kinds of constructs behind `<!`. -/
inductive Declaration
  | comment
  | literal
  | documentType

/-- The kind that the first octet behind `<!` announces. -/
def Declaration.ofOctet? (b : UInt8) : Option Declaration :=
  if b = 0x2D then some .comment
  else if b = 0x5B then some .literal
  else if b = 0x44 ∨ b = 0x64 then some .documentType
  else none

/-- The octets of a construct up to the `>` that ends it, and those after it. -/
def Declaration.split (starts : List Nat) (d : Declaration) (bs : List UInt8) :
    Option (List UInt8 × List UInt8) :=
  match d with
  | .comment => splitWhen closesComment [] bs
  | .literal => splitWhen closesLiteral [] bs
  | .documentType => splitDocumentType starts bs.length 0 [] bs

/-- The event of a construct with its octets between `<!` and `>`. -/
def Declaration.event (d : Declaration) (body : List UInt8) : Except Fault Event :=
  match d with
  | .comment => if body.take 2 = [0x2D, 0x2D] then .ok .aside else .error .unfinished
  | .literal =>
    match afterKeyword? "[cdata[" body with
    -- The two closing brackets in front of the `>` belong to the construct.
    | some rest => .ok (.literal (literalText (rest.dropLast.dropLast)))
    | none => .error .unfinished
  | .documentType =>
    match afterKeyword? "doctype" body with
    | some rest => if rest.all isSpace then .error .emptyDocumentType else .ok .aside
    | none => .error .unfinished

/-- A tag with its octets between `<` and `>`; the octets of its name come first, since an end tag
must repeat them. -/
def readTag (body : List UInt8) : List UInt8 × Event :=
  -- A slash at the end says that the element is empty; it is no part of name or attributes.
  let isEmpty := body.getLast? == some 0x2F
  let inside := if isEmpty then body.dropLast else body
  let name := inside.takeWhile fun b => !isSpace b
  let tag : Tag := ⟨Text.utf8Lossy name, attributes (inside.drop name.length)⟩
  (name, if isEmpty then .empty tag else .start tag)

/-- The name in an end tag: its octets without the white space at the end, unless there is nothing
else. -/
def endName (body : List UInt8) : List UInt8 :=
  if body.all isSpace then body else (skipSpace body.reverse).reverse

/-- What one construct after `<` gives: an event, the names of the elements open after it, and the
octets after it; or the end of the document. -/
inductive Step
  | event (e : Event) (opened : List (List UInt8)) (rest : List UInt8)
  | fault (f : Fault)
  | atEnd

/-- The construct behind `<!`. -/
def readDeclaration (starts : List Nat) (ended : Fault) (opened : List (List UInt8))
    (bs : List UInt8) : Step :=
  match bs with
  | [] => .fault ended
  | b :: _ =>
    match Declaration.ofOctet? b with
    | none => .fault .unexpectedBang
    | some d =>
      match d.split starts bs with
      | none => .fault ended
      | some (body, rest) =>
        match d.event body with
        | .ok e => .event e opened rest
        | .error f => .fault f

/-- The end tag behind `</`. -/
def readEnd (opened : List (List UInt8)) (body rest : List UInt8) : Step :=
  let name := endName body
  match opened with
  | expected :: outer =>
    if name = expected then .event (.finish (Text.utf8Lossy name)) outer rest
    else .fault (.mismatchedEnd (Text.utf8Lossy expected) (Text.utf8Lossy name))
  | [] => .fault (.mismatchedEnd "" (Text.utf8Lossy body))

/-- Whether the octets behind `<?` make an instruction: a question mark ends it, another than the one
that begins it. -/
def isInstruction (body : List UInt8) : Bool :=
  body.getLast? == some 0x3F && decide (1 < body.length)

/-- The construct behind `<`. Where the octets end inside it, it is completed there, or it is cut
short when they break off. -/
def readConstruct (starts : List Nat) (breaksOff : Bool) (opened : List (List UInt8))
    (bs : List UInt8) : Step :=
  let complete (split : List UInt8 × Option (List UInt8))
      (next : List UInt8 → List UInt8 → Step) : Step :=
    match split.2 with
    | some rest => next split.1 rest
    | none => if breaksOff then .fault .interrupted else next split.1 []
  match bs with
  | [] => if breaksOff then .fault .interrupted else .atEnd
  | b :: rest =>
    -- An exclamation mark, a slash and a question mark announce what is no start tag.
    if b = 0x21 then readDeclaration starts (if breaksOff then .interrupted else .unfinished) opened rest
    else if b = 0x2F then complete (splitAt 0x3E rest) (readEnd opened)
    else if b = 0x3F then
      complete (splitAt 0x3E rest) fun body more =>
        if isInstruction body then .event .aside opened more else .fault .unfinished
    else
      complete (splitTag none [] bs) fun body more =>
        match readTag body with
        | (name, .start tag) => .event (.start tag) (name :: opened) more
        | (_, e) => .event e opened more

/-! ## Progress

Each construct uses up at least one octet, which bounds the scan. -/

/-- Behind a mark there are fewer octets. -/
theorem splitAt_length {stop : UInt8} {bs rest : List UInt8}
    (h : (splitAt stop bs).2 = some rest) : rest.length < bs.length := by
  unfold splitAt at h
  split at h
  · rename_i b more hm
    have := (List.dropWhile_suffix (l := bs) (· != stop)).length_le
    rw [hm] at this
    simp only [Option.some.injEq] at h
    subst h
    simp only [List.length_cons] at this
    omega
  · simp at h

/-- So there are behind a mark of several octets. -/
theorem splitWhen_length {done : List UInt8 → Bool} {passed bs body rest : List UInt8}
    (h : splitWhen done passed bs = some (body, rest)) : rest.length < bs.length := by
  induction bs generalizing passed with
  | nil => simp [splitWhen] at h
  | cons b bs ih =>
    unfold splitWhen at h
    split at h
    · simp only [Option.some.injEq, Prod.mk.injEq] at h
      obtain ⟨_, rfl⟩ := h
      simp
    · have := ih h
      simp only [List.length_cons]
      omega

/-- Behind a tag there are fewer octets. -/
theorem splitTag_length {quote : Option UInt8} {passed bs rest : List UInt8}
    (h : (splitTag quote passed bs).2 = some rest) : rest.length < bs.length := by
  induction bs generalizing quote passed with
  | nil => simp [splitTag] at h
  | cons b bs ih =>
    unfold splitTag at h
    split at h
    · split at h
      · simp only [Option.some.injEq] at h
        subst h
        simp
      · have := ih h
        simp only [List.length_cons]
        omega
    · have := ih h
      simp only [List.length_cons]
      omega

/-- Behind a document type there are fewer octets. -/
theorem splitDocumentType_length {starts : List Nat} {left : Nat} {depth : Int}
    {passed bs body rest : List UInt8}
    (h : splitDocumentType starts left depth passed bs = some (body, rest)) :
    rest.length < bs.length := by
  induction bs generalizing starts left depth passed with
  | nil => simp [splitDocumentType] at h
  | cons b bs ih =>
    rw [splitDocumentType] at h
    split at h
    · simp only [Option.some.injEq, Prod.mk.injEq] at h
      obtain ⟨_, rfl⟩ := h
      simp
    · have := ih h
      simp only [List.length_cons]
      omega

/-- Behind a comment, a literal section or a document type there are fewer octets. -/
theorem Declaration.split_length {starts : List Nat} {d : Declaration} {bs body rest : List UInt8}
    (h : d.split starts bs = some (body, rest)) : rest.length < bs.length := by
  cases d with
  | comment => exact splitWhen_length h
  | literal => exact splitWhen_length h
  | documentType => exact splitDocumentType_length h

/-- An end tag takes no more than its own octets. -/
theorem readEnd_rest {opened opened' : List (List UInt8)} {body rest rest' : List UInt8} {e : Event}
    (h : readEnd opened body rest = .event e opened' rest') : rest' = rest := by
  unfold readEnd at h
  simp only at h
  split at h
  · split at h
    · simp only [Step.event.injEq] at h
      exact h.2.2.symm
    · simp at h
  · simp at h

/-- A declaration that makes an event uses octets up. -/
theorem readDeclaration_length {starts : List Nat} {ended : Fault}
    {opened opened' : List (List UInt8)} {bs rest : List UInt8} {e : Event}
    (h : readDeclaration starts ended opened bs = .event e opened' rest) :
    rest.length < bs.length := by
  unfold readDeclaration at h
  split at h
  · simp at h
  · split at h
    · simp at h
    · split at h
      · simp at h
      · rename_i body more hs
        split at h
        · simp only [Step.event.injEq] at h
          obtain ⟨_, _, rfl⟩ := h
          exact Declaration.split_length hs
        · simp at h

/-- So does every construct, which is why a scan comes to an end. -/
theorem readConstruct_length {starts : List Nat} {breaksOff : Bool}
    {opened opened' : List (List UInt8)} {bs rest : List UInt8} {e : Event}
    (h : readConstruct starts breaksOff opened bs = .event e opened' rest) :
    rest.length < bs.length := by
  unfold readConstruct at h
  simp only at h
  split at h
  · split at h <;> simp at h
  · rename_i b more
    simp only [List.length_cons]
    split at h
    · have := readDeclaration_length h
      omega
    · split at h
      · split at h
        · rename_i r hr
          have h1 := splitAt_length hr
          have h2 := readEnd_rest h
          subst h2
          omega
        · split at h
          · simp at h
          · have h2 := readEnd_rest h
            subst h2
            simp
      · split at h
        · split at h
          · rename_i r hr
            have h1 := splitAt_length hr
            split at h
            · simp only [Step.event.injEq] at h
              obtain ⟨_, _, rfl⟩ := h
              omega
            · simp at h
          · split at h
            · simp at h
            · split at h
              · simp only [Step.event.injEq] at h
                obtain ⟨_, _, rfl⟩ := h
                simp
              · simp at h
        · split at h
          · rename_i r hr
            have h1 := splitTag_length hr
            simp only [List.length_cons] at h1
            split at h
            · simp only [Step.event.injEq] at h
              obtain ⟨_, _, rfl⟩ := h
              exact h1
            · simp only [Step.event.injEq] at h
              obtain ⟨_, _, rfl⟩ := h
              exact h1
          · split at h
            · simp at h
            · split at h
              · simp only [Step.event.injEq] at h
                obtain ⟨_, _, rfl⟩ := h
                simp
              · simp only [Step.event.injEq] at h
                obtain ⟨_, _, rfl⟩ := h
                simp

/-- Scanning with the names of the open elements, the innermost first, and the events so far, the
last first. -/
def scanFrom (starts : List Nat) (breaksOff : Bool) (opened : List (List UInt8)) (out : List Event)
    (bs : List UInt8) : Stream :=
  let stop (out : List Event) : Stream :=
    ⟨out.reverse, if breaksOff then some .interrupted else none⟩
  match bs with
  | [] => stop out
  | b :: rest =>
    if b = 0x3C then
      match h : readConstruct starts breaksOff opened rest with
      | .event e opened after =>
        have : after.length < (b :: rest).length := by
          have := readConstruct_length h
          simp only [List.length_cons]
          omega
        scanFrom starts breaksOff opened (e :: out) after
      | .fault f => ⟨out.reverse, some f⟩
      | .atEnd => stop out
    else
      let text := .text (expandedText (b :: rest.takeWhile (· != 0x3C)))
      let after := rest.dropWhile (· != 0x3C)
      have : after.length < (b :: rest).length := by
        have := (List.dropWhile_suffix (l := rest) (· != 0x3C)).length_le
        simp only [List.length_cons]
        exact Nat.lt_succ_of_le this
      -- Text that reaches the place where the octets break off may be cut, and is not given.
      if after.isEmpty ∧ breaksOff then stop out
      else scanFrom starts breaksOff opened (text :: out) after
termination_by bs.length
decreasing_by
  · exact this
  · exact this

/-- A document without the byte order mark in front of it, which arrives in the first portion. -/
def dropMark : List (List UInt8) → List (List UInt8)
  | (0xEF :: 0xBB :: 0xBF :: rest) :: portions => rest :: portions
  | portions => portions

/-- The events of a document. -/
def scan (s : Source) : Stream :=
  let portions := dropMark s.portions
  scanFrom (starts portions) s.breaksOff [] [] portions.flatten

end Xlsx.Markup
