import Mathlib.Data.List.Infix
import Xlsx.Proofs.Reference.OctetReading
import Xlsx.Proofs.Text.Encoding
import Xlsx.Proofs.Text.Escaping

/-! # One pass over escapes

Decoding reads a text once from the left. It goes from one `_x` to the next and cuts the octets of the
text there, and behind what it has read; every cut is between characters.

* **`Unescaped`**: what a text says, read once from the left.
* **`unescaped_iff`**: decoding gives what the text says, and nothing else is said.
* **`unescapeOctets?`**: the pass over the octets of a text, which fails where it would divide a
  character.
* **`Unescaped.unescapeOctetsFrom?_eq`**: the pass gives the octets of what the text says.
* **`unescape_onePass`**: this of decoding, and which texts it leaves as they are. -/

namespace Xlsx.Text

open Position (charOf charOf_ofNat toNat_charOf)

/-! ## Reading from the left -/

/-- **An escape at the head of a text**: `_x`, four hexadecimal digits and `_`, if the digits write the
code point of a character. -/
def StartsEscape (cs : List Char) : Prop :=
  ∃ (a b c d ch : Char) (rest : List Char),
    cs = '_' :: 'x' :: a :: b :: c :: d :: '_' :: rest ∧ fourHex? a b c d = some ch.toNat

/-- **What a text says**, read once from the left: an escape is its character, and reading goes on
behind it; a `_x` that starts none is both its characters; and any other character is itself. -/
inductive Unescaped : List Char → List Char → Prop
  | nil : Unescaped [] []
  | escape {a b c d ch : Char} {cs out : List Char} (hcode : fourHex? a b c d = some ch.toNat)
      (h : Unescaped cs out) : Unescaped ('_' :: 'x' :: a :: b :: c :: d :: '_' :: cs) (ch :: out)
  | mark {cs out : List Char} (hmark : ¬ StartsEscape ('_' :: 'x' :: cs)) (h : Unescaped cs out) :
      Unescaped ('_' :: 'x' :: cs) ('_' :: 'x' :: out)
  | other {c : Char} {cs out : List Char} (hother : ¬ (c = '_' ∧ cs.head? = some 'x'))
      (h : Unescaped cs out) : Unescaped (c :: cs) (c :: out)

/-- A number is the code point of the character that it stands for. -/
theorem scalar?_eq_some {n : Nat} {ch : Char} : scalar? n = some ch ↔ n = ch.toNat := by
  constructor
  · intro h
    obtain ⟨hvalid, h⟩ := Option.ite_none_right_eq_some.mp h
    rw [← Option.some.inj h, Char.ofNat, dif_pos hvalid]
    rfl
  · rintro rfl
    exact scalar?_toNat ch

/-- The escape that is found at the head of a text, and the text behind it. -/
theorem escape?_eq_some {cs rest : List Char} {ch : Char} :
    escape? cs = some (ch, rest) ↔ ∃ a b c d,
      cs = '_' :: 'x' :: a :: b :: c :: d :: '_' :: rest ∧ fourHex? a b c d = some ch.toNat := by
  constructor
  · intro h
    unfold escape? at h
    split at h
    · rename_i a b c d behind
      obtain ⟨code, hcode, h⟩ := Option.bind_eq_some_iff.mp h
      obtain ⟨found, hfound, h⟩ := Option.bind_eq_some_iff.mp h
      obtain ⟨rfl, rfl⟩ := Prod.mk.inj (Option.some.inj h)
      exact ⟨a, b, c, d, rfl, by rw [hcode, scalar?_eq_some.mp hfound]⟩
    · exact nomatch h
  · rintro ⟨a, b, c, d, rfl, hcode⟩
    simp [escape?, hcode, scalar?_toNat]

/-- Where no escape starts none is found. -/
theorem escape?_eq_none {cs : List Char} (h : ¬ StartsEscape cs) : escape? cs = none := by
  refine Option.eq_none_iff_forall_ne_some.mpr fun found hfound => h ?_
  obtain ⟨a, b, c, d, hcs, hcode⟩ := escape?_eq_some.mp hfound
  exact ⟨a, b, c, d, found.1, found.2, hcs, hcode⟩

/-- A `_x` that starts no escape is passed over as a whole. -/
theorem piece_mark {cs : List Char} (h : ¬ StartsEscape ('_' :: 'x' :: cs)) :
    piece '_' ('x' :: cs) = (['_', 'x'], cs) := by
  rw [piece, escape?_eq_none h]

/-- A character that starts no `_x` stands for itself. -/
theorem piece_other {c : Char} {cs : List Char} (h : ¬ (c = '_' ∧ cs.head? = some 'x')) :
    piece c cs = ([c], cs) := by
  have hnone : ¬ StartsEscape (c :: cs) := by
    rintro ⟨_, _, _, _, _, _, hcs, -⟩
    obtain ⟨rfl, rfl⟩ := List.cons.inj hcs
    exact h ⟨rfl, rfl⟩
  rw [piece, escape?_eq_none hnone]
  rintro after rfl rfl
  exact h ⟨rfl, rfl⟩

/-- **Decoding gives what a text says**, behind what was decoded before. -/
theorem Unescaped.unescapeFrom_eq {cs out : List Char} (h : Unescaped cs out) (done : List Char) :
    unescapeFrom done cs = done.reverse ++ out := by
  induction h generalizing done with
  | nil => rw [unescapeFrom, List.append_nil]
  | escape hcode h ih =>
    rw [unescapeFrom_cons, piece_code hcode, ih]
    simp
  | mark hmark h ih =>
    rw [unescapeFrom_cons, piece_mark hmark, ih]
    simp
  | other hother h ih =>
    rw [unescapeFrom_cons, piece_other hother, ih]
    simp

/-- Every text says something. -/
theorem exists_unescaped (cs : List Char) : ∃ out, Unescaped cs out := by
  induction hn : cs.length using Nat.strong_induction_on generalizing cs with
  | _ n ih =>
    subst hn
    cases cs with
    | nil => exact ⟨[], .nil⟩
    | cons c cs =>
      by_cases hmark : c = '_' ∧ cs.head? = some 'x'
      · obtain ⟨rfl, hx⟩ := hmark
        obtain ⟨rest, rfl⟩ := List.head?_eq_some_iff.mp hx
        by_cases hescape : StartsEscape ('_' :: 'x' :: rest)
        · obtain ⟨a, b, c, d, ch, behind, hcs, hcode⟩ := hescape
          rw [hcs] at ih ⊢
          obtain ⟨out, hout⟩ := ih behind.length (by simp only [List.length_cons]; omega) behind rfl
          exact ⟨ch :: out, .escape hcode hout⟩
        · obtain ⟨out, hout⟩ := ih rest.length (by simp only [List.length_cons]; omega) rest rfl
          exact ⟨_, .mark hescape hout⟩
      · obtain ⟨out, hout⟩ := ih cs.length (by simp) cs rfl
        exact ⟨c :: out, .other hmark hout⟩

/-- **Decoding gives what a text says**, and nothing else is said. -/
theorem unescaped_iff {cs out : List Char} : Unescaped cs out ↔ unescapeChars cs = out := by
  constructor
  · intro h
    rw [unescapeChars, h.unescapeFrom_eq]
    rfl
  · rintro rfl
    obtain ⟨out, hout⟩ := exists_unescaped cs
    have hsaid : unescapeChars cs = out := by
      rw [unescapeChars, hout.unescapeFrom_eq]
      rfl
    rw [hsaid]
    exact hout

/-- **A text without an escape** says what is written. -/
theorem Unescaped.eq_self {cs out : List Char} (h : Unescaped cs out)
    (hnone : ∀ rest, rest <:+ cs → ¬ StartsEscape rest) : out = cs := by
  induction h with
  | nil => rfl
  | escape hcode h ih => exact absurd ⟨_, _, _, _, _, _, rfl, hcode⟩ (hnone _ (List.suffix_refl _))
  | mark hmark h ih =>
    rw [ih fun rest hrest => hnone rest ((hrest.trans (List.suffix_cons _ _)).trans (List.suffix_cons _ _))]
  | other hother h ih => rw [ih fun rest hrest => hnone rest (hrest.trans (List.suffix_cons _ _))]

/-! ## The pass over the octets -/

/-- Where the octets of `_x` stand first. -/
def findMark? : List UInt8 → Option Nat
  | [] => none
  | octet :: octets =>
    if octet = 0x5F ∧ octets.head? = some 0x78 then some 0 else (findMark? octets).map (· + 1)

/-- The character of an escape at the head of some octets, if there is one, as told by their number, the
seventh and the four in front of it; `none` if the four could not be cut out. -/
def escapeIn? (candidate : List UInt8) : Option (Option Char) :=
  match candidate with
  | _ :: _ :: a :: b :: c :: d :: closing :: _ =>
    if closing = 0x5F ∧ [a, b, c, d].all fun octet => (hexDigit? (charOf octet)).isSome then
      (slice? candidate 2 6).map fun digits =>
        (numeralFrom hexDigit? 16 0 (digits.map charOf)).bind scalar?
    else some none
  | _ => some none

/-- One turn of the pass, to the `_x` at some place and over it or the escape that it starts: what is
given, and what is left; `none` if a character would be divided. -/
def turn? (octets : List UInt8) (place : Nat) : Option (List UInt8 × List UInt8) := do
  let plain ← slice? octets 0 place
  let candidate ← slice? octets place octets.length
  match ← escapeIn? candidate with
  | some ch => return (plain ++ String.utf8EncodeChar ch, ← slice? candidate 7 candidate.length)
  | none => return (plain ++ [0x5F, 0x78], ← slice? candidate 2 candidate.length)

/-- A turn leaves fewer octets than there were. -/
theorem turn?_length {octets given left : List UInt8} {place : Nat}
    (h : turn? octets place = some (given, left)) : left.length < octets.length := by
  obtain ⟨plain, -, h⟩ := Option.bind_eq_some_iff.mp h
  obtain ⟨candidate, hcandidate, h⟩ := Option.bind_eq_some_iff.mp h
  obtain ⟨found, -, h⟩ := Option.bind_eq_some_iff.mp h
  have hshorter := length_of_slice? hcandidate
  have hcut : ∀ {k : Nat}, 0 < k → slice? candidate k candidate.length = some left →
      left.length < octets.length := by
    intro k hk hleft
    have hle := le_of_slice? hleft
    have hlength := length_of_slice? hleft
    omega
  cases found with
  | some ch =>
    obtain ⟨behind, hbehind, h⟩ := Option.bind_eq_some_iff.mp h
    obtain ⟨-, rfl⟩ := Prod.mk.inj (Option.some.inj h)
    exact hcut (by decide) hbehind
  | none =>
    obtain ⟨behind, hbehind, h⟩ := Option.bind_eq_some_iff.mp h
    obtain ⟨-, rfl⟩ := Prod.mk.inj (Option.some.inj h)
    exact hcut (by decide) hbehind

/-- The turn to the first `_x` of some octets, if there is one. -/
def nextTurn? (octets : List UInt8) : Option (Option (List UInt8 × List UInt8)) :=
  (findMark? octets).map (turn? octets)

/-- Each turn of the loop uses octets up. -/
theorem nextTurn?_length {octets given left : List UInt8}
    (h : nextTurn? octets = some (some (given, left))) : left.length < octets.length := by
  obtain ⟨place, -, hturn⟩ := Option.map_eq_some_iff.mp h
  exact turn?_length hturn

/-- The pass over octets, behind what was given before. -/
def unescapeOctetsFrom? (done octets : List UInt8) : Option (List UInt8) :=
  match h : nextTurn? octets with
  | none => some (done ++ octets)
  | some none => none
  | some (some (given, left)) =>
    have := nextTurn?_length h
    unescapeOctetsFrom? (done ++ given) left
termination_by octets.length
decreasing_by exact this

/-- **The pass over the octets of a text**; `none` if it divides a character. -/
def unescapeOctets? (octets : List UInt8) : Option (List UInt8) := unescapeOctetsFrom? [] octets

/-- Without a mark the octets stay as they are. -/
theorem unescapeOctetsFrom?_of_none {done octets : List UInt8} (h : findMark? octets = none) :
    unescapeOctetsFrom? done octets = some (done ++ octets) := by
  have hnext : nextTurn? octets = none := by rw [nextTurn?, h, Option.map_none]
  rw [unescapeOctetsFrom?]
  split
  · rfl
  · rename_i hfound
    simp [hnext] at hfound
  · rename_i hfound
    simp [hnext] at hfound

/-- At a mark one turn is taken, and the loop goes on behind it. -/
theorem unescapeOctetsFrom?_of_turn {done octets given left : List UInt8} {place : Nat}
    (hplace : findMark? octets = some place) (hturn : turn? octets place = some (given, left)) :
    unescapeOctetsFrom? done octets = unescapeOctetsFrom? (done ++ given) left := by
  have hnext : nextTurn? octets = some (some (given, left)) := by
    rw [nextTurn?, hplace, Option.map_some, hturn]
  rw [unescapeOctetsFrom?]
  split
  · rename_i hfound
    simp [hnext] at hfound
  · rename_i hfound
    simp [hnext] at hfound
  · rename_i given' left' hfound
    rw [hnext] at hfound
    obtain ⟨rfl, rfl⟩ := Prod.mk.inj (Option.some.inj (Option.some.inj hfound))
    rfl

/-! ### Where the pass stops -/

/-- Nothing is found among octets other than that of `_`. -/
theorem findMark?_append {front : List UInt8} (h : ∀ octet ∈ front, octet ≠ 0x5F)
    (octets : List UInt8) :
    findMark? (front ++ octets) = (findMark? octets).map (· + front.length) := by
  induction front with
  | nil => simp
  | cons octet front ih =>
    obtain ⟨hoctet, hfront⟩ := List.forall_mem_cons.mp h
    rw [List.cons_append, findMark?, if_neg fun hmark => hoctet hmark.1, ih hfront, Option.map_map,
      List.length_cons]
    rfl

/-- A `_x` is found where it stands. -/
theorem findMark?_mark (cs : List Char) : findMark? (encode ('_' :: 'x' :: cs)) = some 0 := by
  rw [encode_cons_of_lt (by decide), encode_cons_of_lt (by decide), findMark?]
  exact if_pos ⟨by decide, rfl⟩

/-- Any other character is passed over with all of its octets. -/
theorem findMark?_other {c : Char} {cs : List Char} (h : ¬ (c = '_' ∧ cs.head? = some 'x')) :
    findMark? (encode (c :: cs)) = (findMark? (encode cs)).map (· + (encode [c]).length) := by
  rcases Nat.lt_or_ge c.toNat 128 with hc | hc
  · have hnone : ¬ (UInt8.ofNat c.toNat = 0x5F ∧ (encode cs).head? = some 0x78) := fun hmark =>
      h ⟨(ofNat_toNat_inj hc (by decide)).mp hmark.1, (head?_encode (by decide)).mp hmark.2⟩
    rw [encode_cons_of_lt hc, encode_cons_of_lt hc, findMark?, if_neg hnone]
    rfl
  · obtain ⟨first, second, more, hoctets, hmarked⟩ := utf8EncodeChar_of_le hc
    rw [encode_cons, encode_cons, encode_nil, List.append_nil, hoctets]
    refine findMark?_append (fun octet hoctet heq => ?_) (encode cs)
    have hle := hmarked octet hoctet
    rw [heq] at hle
    exact absurd hle (by decide)

/-! ### Escapes among octets -/

/-- A hexadecimal digit is an ASCII character. -/
theorem toNat_lt_of_hexDigit? {c : Char} (h : (hexDigit? c).isSome = true) : c.toNat < 128 := by
  by_contra hc
  have hge : 128 ≤ c.toNat := Nat.not_lt.mp hc
  have hdigit : c.isDigit = false := by
    rw [Bool.eq_false_iff]
    intro hdigit
    have := (toNat_of_isDigit hdigit).2
    omega
  have hlower : ¬ c ≤ 'f' := by
    rw [Char.le_def, UInt32.le_iff_toNat_le]
    exact fun hle => absurd (Nat.le_trans hge hle) (by decide)
  have hupper : ¬ c ≤ 'F' := by
    rw [Char.le_def, UInt32.le_iff_toNat_le]
    exact fun hle => absurd (Nat.le_trans hge hle) (by decide)
  simp [hexDigit?, hdigit, hlower, hupper] at h

/-- Four hexadecimal digits write a number like any others. -/
theorem fourHex?_eq_numeralFrom (a b c d : Char) :
    fourHex? a b c d = numeralFrom hexDigit? 16 0 [a, b, c, d] := by
  rw [fourHex?]
  simp only [numeralFrom]
  cases hexDigit? a <;> cases hexDigit? b <;> cases hexDigit? c <;> cases hexDigit? d <;>
    simp [bind, Option.bind]

/-- The digits of a code are hexadecimal ones. -/
theorem isSome_of_fourHex? {a b c d : Char} {code : Nat} (h : fourHex? a b c d = some code) :
    ∀ digit ∈ [a, b, c, d], (hexDigit? digit).isSome = true := by
  obtain ⟨_, ha, h⟩ := Option.bind_eq_some_iff.mp h
  obtain ⟨_, hb, h⟩ := Option.bind_eq_some_iff.mp h
  obtain ⟨_, hc, h⟩ := Option.bind_eq_some_iff.mp h
  obtain ⟨_, hd, -⟩ := Option.bind_eq_some_iff.mp h
  simp [ha, hb, hc, hd]

/-- **ASCII octets in front** are those of the characters in front. -/
theorem encode_eq_append {cs : List Char} {front behind : List UInt8} (h : encode cs = front ++ behind)
    (hascii : ∀ octet ∈ front, octet.toNat < 128) :
    ∃ rest, cs = front.map charOf ++ rest ∧ behind = encode rest := by
  induction front generalizing cs with
  | nil => exact ⟨cs, rfl, h.symm⟩
  | cons octet front ih =>
    obtain ⟨hoctet, hfront⟩ := List.forall_mem_cons.mp hascii
    obtain ⟨c, rest, rfl, hc, rfl, hrest⟩ := encode_eq_cons h hoctet
    obtain ⟨rest, rfl, hbehind⟩ := ih hrest.symm hfront
    exact ⟨rest, by rw [List.map_cons, charOf_ofNat hc]; rfl, hbehind⟩

/-- The octets of an escape, and the digits that are cut out of them. -/
theorem encode_escape {a b c d : Char} (h : ∀ digit ∈ [a, b, c, d], digit.toNat < 128)
    (cs : List Char) :
    (encode ['_', 'x', a, b, c, d, '_']).length = 7 ∧
      slice? (encode ('_' :: 'x' :: a :: b :: c :: d :: '_' :: cs)) 2 6 = some (encode [a, b, c, d]) ∧
      (encode [a, b, c, d]).map charOf = [a, b, c, d] := by
  have hmap := encode_of_lt h
  have hascii : ∀ digit ∈ ['_', 'x', a, b, c, d, '_'], digit.toNat < 128 := by
    simp only [List.forall_mem_cons] at h ⊢
    exact ⟨by decide, by decide, h.1, h.2.1, h.2.2.1, h.2.2.2.1, by decide, h.2.2.2.2⟩
  refine ⟨by rw [encode_of_lt hascii]; rfl, ?_, ?_⟩
  · have hslice := slice?_encode ['_', 'x'] [a, b, c, d] ('_' :: cs)
    have hlength : (encode (['_', 'x'] ++ [a, b, c, d])).length = 6 := by
      rw [encode_append, hmap]
      rfl
    rw [hlength] at hslice
    exact hslice
  · rw [hmap, List.map_map]
    exact (List.map_congr_left fun digit hdigit => charOf_ofNat (h digit hdigit)).trans (List.map_id _)

/-- An escape is found by its octets. -/
theorem escapeIn?_escape {a b c d ch : Char} (hcode : fourHex? a b c d = some ch.toNat)
    (cs : List Char) :
    escapeIn? (encode ('_' :: 'x' :: a :: b :: c :: d :: '_' :: cs)) = some (some ch) := by
  have hhex := isSome_of_fourHex? hcode
  have hascii : ∀ digit ∈ [a, b, c, d], digit.toNat < 128 :=
    fun digit hdigit => toNat_lt_of_hexDigit? (hhex digit hdigit)
  obtain ⟨-, hslice, hdigits⟩ := encode_escape hascii cs
  rw [fourHex?_eq_numeralFrom] at hcode
  simp only [List.forall_mem_cons] at hascii hhex
  obtain ⟨ha, hb, hc, hd, -⟩ := hascii
  rw [encode_cons_of_lt (by decide), encode_cons_of_lt (by decide), encode_cons_of_lt ha,
    encode_cons_of_lt hb, encode_cons_of_lt hc, encode_cons_of_lt hd, encode_cons_of_lt (by decide)]
    at hslice ⊢
  rw [escapeIn?, if_pos, hslice, Option.map_some, hdigits, hcode, Option.bind_some, scalar?_toNat]
  simp only [List.all_eq_true, List.forall_mem_cons, charOf_ofNat ha, charOf_ofNat hb, charOf_ofNat hc,
    charOf_ofNat hd]
  exact ⟨by decide, hhex.1, hhex.2.1, hhex.2.2.1, hhex.2.2.2.1,
    fun octet hoctet => absurd hoctet List.not_mem_nil⟩

/-- Nothing else is found. -/
theorem escapeIn?_mark {cs : List Char} (h : ¬ StartsEscape ('_' :: 'x' :: cs)) :
    escapeIn? (encode ('_' :: 'x' :: cs)) = some none := by
  unfold escapeIn?
  split
  · rename_i first second a b c d closing behind hoctets
    split
    · rename_i hescape
      obtain ⟨hclosing, hhex⟩ := hescape
      rw [List.all_eq_true] at hhex
      have hascii : ∀ octet ∈ [a, b, c, d, closing], octet.toNat < 128 := by
        intro octet hoctet
        rcases List.mem_append.mp (show octet ∈ [a, b, c, d] ++ [closing] from hoctet) with hdigit | hlast
        · rw [← toNat_charOf]
          exact toNat_lt_of_hexDigit? (hhex octet hdigit)
        · rw [List.mem_singleton.mp hlast, hclosing]
          decide
      -- So the five octets are ASCII characters, and the text goes on like an escape.
      rw [encode_cons_of_lt (by decide), encode_cons_of_lt (by decide)] at hoctets
      have hwindow : encode cs = [a, b, c, d, closing] ++ behind :=
        (List.cons.inj (List.cons.inj hoctets).2).2
      obtain ⟨rest, rfl, -⟩ := encode_eq_append hwindow hascii
      have hunderscore : charOf closing = '_' := by
        rw [hclosing]
        decide
      simp only [List.map_cons, List.map_nil, List.cons_append, List.nil_append, hunderscore] at h ⊢
      obtain ⟨-, hslice, hdigits⟩ := @encode_escape (charOf a) (charOf b) (charOf c) (charOf d)
        (fun digit hdigit => by
          obtain ⟨octet, hoctet, rfl⟩ := List.mem_map.mp
            (show digit ∈ [a, b, c, d].map charOf from hdigit)
          exact toNat_lt_of_hexDigit? (hhex octet hoctet)) rest
      rw [hslice, Option.map_some, hdigits, ← fourHex?_eq_numeralFrom]
      -- The digits write no character, or there would be an escape.
      refine congrArg some (Option.eq_none_iff_forall_ne_some.mpr fun ch hch => h ?_)
      obtain ⟨code, hcode, hscalar⟩ := Option.bind_eq_some_iff.mp hch
      exact ⟨_, _, _, _, ch, rest, rfl, by rw [hcode, scalar?_eq_some.mp hscalar]⟩
    · rfl
  · rfl

/-! ### The whole pass -/

/-- A turn over an escape. -/
theorem turn?_escape {a b c d ch : Char} (hcode : fourHex? a b c d = some ch.toNat)
    (plain cs : List Char) :
    turn? (encode (plain ++ '_' :: 'x' :: a :: b :: c :: d :: '_' :: cs)) (encode plain).length =
      some (encode (plain ++ [ch]), encode cs) := by
  obtain ⟨hlength, -, -⟩ := @encode_escape a b c d
    (fun digit hdigit => toNat_lt_of_hexDigit? (isSome_of_fourHex? hcode digit hdigit)) cs
  have hbehind := slice?_behind ['_', 'x', a, b, c, d, '_'] cs
  rw [hlength] at hbehind
  rw [encode_append plain [ch], encode_cons, encode_nil, List.append_nil]
  refine Option.bind_eq_some_iff.mpr ⟨_, slice?_front plain _, ?_⟩
  refine Option.bind_eq_some_iff.mpr ⟨_, slice?_behind plain _, ?_⟩
  refine Option.bind_eq_some_iff.mpr ⟨_, escapeIn?_escape hcode cs, ?_⟩
  exact Option.bind_eq_some_iff.mpr ⟨_, hbehind, rfl⟩

/-- A turn over a `_x` that starts no escape. -/
theorem turn?_mark {cs : List Char} (h : ¬ StartsEscape ('_' :: 'x' :: cs)) (plain : List Char) :
    turn? (encode (plain ++ '_' :: 'x' :: cs)) (encode plain).length =
      some (encode (plain ++ ['_', 'x']), encode cs) := by
  rw [encode_append plain ['_', 'x']]
  refine Option.bind_eq_some_iff.mpr ⟨_, slice?_front plain _, ?_⟩
  refine Option.bind_eq_some_iff.mpr ⟨_, slice?_behind plain _, ?_⟩
  refine Option.bind_eq_some_iff.mpr ⟨_, escapeIn?_mark h, ?_⟩
  exact Option.bind_eq_some_iff.mpr ⟨_, slice?_behind ['_', 'x'] cs, rfl⟩

/-- **The pass gives the octets of what a text says**, behind characters that hold no `_x` and that it
has not given yet. -/
theorem Unescaped.unescapeOctetsFrom?_eq {cs out : List Char} (h : Unescaped cs out)
    (plain : List Char) (done : List UInt8)
    (hplain : findMark? (encode (plain ++ cs)) =
      (findMark? (encode cs)).map (· + (encode plain).length)) :
    unescapeOctetsFrom? done (encode (plain ++ cs)) = some (done ++ encode (plain ++ out)) := by
  induction h generalizing plain done with
  | nil => exact unescapeOctetsFrom?_of_none hplain
  | escape hcode h ih =>
    rw [findMark?_mark, Option.map_some, Nat.zero_add] at hplain
    rw [unescapeOctetsFrom?_of_turn hplain (turn?_escape hcode plain _)]
    refine (ih [] _ (by simp)).trans (congrArg some ?_)
    rw [List.append_assoc, ← encode_append, List.append_assoc]
    rfl
  | mark hmark h ih =>
    rw [findMark?_mark, Option.map_some, Nat.zero_add] at hplain
    rw [unescapeOctetsFrom?_of_turn hplain (turn?_mark hmark plain)]
    refine (ih [] _ (by simp)).trans (congrArg some ?_)
    rw [List.append_assoc, ← encode_append, List.append_assoc]
    rfl
  | @other c cs out hother h ih =>
    have hlonger := ih (plain ++ [c]) done (by
      rw [List.append_assoc, List.singleton_append, hplain, findMark?_other hother, Option.map_map,
        encode_append, List.length_append]
      congr 1
      funext place
      simp only [Function.comp_apply]
      omega)
    simpa only [List.append_assoc, List.singleton_append] using hlonger

/-- **Decoding is one pass from the left.** It gives what the text says, read once from the left, and so
does the pass over the octets of the text, which divides no character. A text in which no escape starts
anywhere is left as it is. -/
theorem unescape_onePass (s : String) :
    (∀ t : String, Unescaped s.toList t.toList ↔ unescape s = t) ∧
      unescapeOctets? (octets s) = some (octets (unescape s)) ∧
      ((∀ rest, rest <:+ s.toList → ¬ StartsEscape rest) → unescape s = s) := by
  have hsaid : Unescaped s.toList (unescape s).toList := by
    rw [unescaped_iff, unescape, String.toList_ofList]
  refine ⟨fun t => ?_, ?_, fun hnone => ?_⟩
  · rw [unescaped_iff, unescape, String.ext_iff, String.toList_ofList]
  · rw [unescapeOctets?, octets_eq_encode, octets_eq_encode]
    exact hsaid.unescapeOctetsFrom?_eq [] [] (by simp)
  · exact String.ext_iff.mpr (hsaid.eq_self hnone)

/-- Marks that overlap, a character that is produced and would begin another escape, one beyond ASCII,
and a code point of no character; and a text in which nothing is an escape. -/
theorem unescape_onePass_overlapping :
    unescape "_x_x0041__x005F_x0041_é_xD800_" = "_xA_x0041_é_xD800_" ∧
      unescapeOctets? (octets "_x_x0041__x005F_x0041_é_xD800_") =
        some (octets "_xA_x0041_é_xD800_") ∧
      (∀ rest, rest <:+ "_xD800__x12_".toList → ¬ StartsEscape rest) ∧
      unescape "_xD800__x12_" = "_xD800__x12_" := by
  have hoverlapping : unescape "_x_x0041__x005F_x0041_é_xD800_" = "_xA_x0041_é_xD800_" := by
    decide +kernel
  have hnone : ∀ rest ∈ "_xD800__x12_".toList.tails, escape? rest = none := by decide +kernel
  have hplain : ∀ rest, rest <:+ "_xD800__x12_".toList → ¬ StartsEscape rest := by
    rintro rest hrest ⟨a, b, c, d, ch, behind, hcs, hcode⟩
    have hsome := escape?_eq_some.mpr ⟨a, b, c, d, hcs, hcode⟩
    rw [hnone rest ((List.mem_tails _ _).mpr hrest)] at hsome
    exact nomatch hsome
  obtain ⟨-, hoctets, -⟩ := unescape_onePass "_x_x0041__x005F_x0041_é_xD800_"
  obtain ⟨-, -, hself⟩ := unescape_onePass "_xD800__x12_"
  exact ⟨hoverlapping, hoverlapping ▸ hoctets, hplain, hself hplain⟩

end Xlsx.Text
