import Xlsx.Proofs.Text.Trimming
import Xlsx.Workbook.DateFormat

/-! # The items of a format code

A format code is a sequence of items: quoted texts, brackets, characters behind an escape, and single
characters. It shows dates if one of its items does, whatever stands between them.

* **`Item`**, **`Item.chars`**: the items and how they are written.
* **`Item.showsDate`**, **`Item.isSilent`**: the items that show dates, and those that say nothing.
* **`isDateCode_append`**, **`isDateCode_spelling`**: one item more, and all the items of a code.
* **`isDateCode_items`**: which codes show dates. -/

namespace Xlsx.DateFormat

/-! ## Items -/

/-- The letters that stand for a part of a date or a time, in either case. -/
def dateLetters : List Char := ['y', 'm', 'd', 'h', 's', 'Y', 'M', 'D', 'H', 'S']

/-- The letters that may count elapsed time, in either case. -/
def elapsedLetters : List Char := ['h', 'm', 's', 'H', 'M', 'S']

/-- The characters that begin a quoted text, a bracket or an escape. -/
def openers : List Char := ['"', '[', '\\', '_', '*']

/-- **An item of a format code.** A quoted text and a bracket end at the first character that may end
them; an escape takes any one character with it. -/
inductive Item
  | quoted (content : List Char) (closed : '"' ∉ content)
  | bracket (content : List Char) (closed : ']' ∉ content)
  | escaped (mark : Char) (marks : mark ∈ ['\\', '_', '*']) (c : Char)
  | letter (c : Char) (names : c ∈ dateLetters)
  | plain (c : Char) (alone : c ∉ openers) (means : c ∉ dateLetters)

namespace Item

/-- How an item is written. -/
def chars : Item → List Char
  | quoted content _ => '"' :: content ++ ['"']
  | bracket content _ => '[' :: content ++ [']']
  | escaped mark _ c => [mark, c]
  | letter c _ => [c]
  | plain c _ _ => [c]

/-- **An item that shows a date**: a letter, or a bracket that counts elapsed time. -/
def showsDate : Item → Bool
  | quoted _ _ => false
  | bracket content _ => !content.isEmpty && content.all elapsedLetters.contains
  | escaped _ _ _ => false
  | letter _ _ => true
  | plain _ _ _ => false

/-- **An item that says nothing about the value**: quoted text, an escape, or another bracket. -/
def isSilent : Item → Bool
  | quoted _ _ => true
  | bracket content closed => !(bracket content closed).showsDate
  | escaped _ _ _ => true
  | letter _ _ => false
  | plain _ _ _ => false

/-- What says nothing about the value shows no date. -/
theorem showsDate_of_isSilent {item : Item} (h : item.isSilent = true) : item.showsDate = false := by
  cases item with
  | quoted content closed => rfl
  | bracket content closed => simpa [isSilent] using h
  | escaped mark marks c => rfl
  | letter c names => simp [isSilent] at h
  | plain c alone means => rfl

/-- The items that show dates. -/
theorem showsDate_iff (item : Item) :
    item.showsDate = true ↔ (∃ c names, item = .letter c names) ∨
      ∃ content closed, item = .bracket content closed ∧ content ≠ [] ∧
        ∀ c ∈ content, c ∈ elapsedLetters := by
  cases item with
  | quoted content closed => simp [showsDate]
  | bracket content closed =>
    have hshows : (bracket content closed).showsDate = true ↔
        content ≠ [] ∧ ∀ c ∈ content, c ∈ elapsedLetters := by
      simp [showsDate]
    rw [hshows]
    constructor
    · exact fun h => .inr ⟨content, closed, rfl, h⟩
    · rintro (⟨c, names, heq⟩ | ⟨content', closed', heq, h⟩)
      · cases heq
      · cases heq
        exact h
  | escaped mark marks c => simp [showsDate]
  | letter c names => exact ⟨fun _ => .inl ⟨c, names, rfl⟩, fun _ => rfl⟩
  | plain c alone means => simp [showsDate]

end Item

/-- How a sequence of items is written. -/
def spelling (items : List Item) : List Char := items.flatMap Item.chars

/-! ## Letters in either case -/

/-- Only ASCII letters have another case. -/
theorem toLower_of_le {c : Char} (h : 128 ≤ c.toNat) : c.toLower = c := by
  have hupper : ¬ ('A'.val ≤ c.val ∧ c.val ≤ 'Z'.val) := by
    rintro ⟨-, hle⟩
    have hval : c.toNat ≤ 90 := hle
    omega
  exact dif_neg hupper

/-- A test in lower case is one for ASCII letters in either case. -/
theorem toLower_mem_iff {lower cases : List Char} (hlower : lower.all (·.toNat < 128) = true)
    (hcases : cases.all (·.toNat < 128) = true)
    (hascii : ∀ n < 128, (Char.ofNat n).toLower ∈ lower ↔ Char.ofNat n ∈ cases) (c : Char) :
    c.toLower ∈ lower ↔ c ∈ cases := by
  induction c using Text.ascii_cases with
  | hascii n hn => exact hascii n hn
  | hother c hc =>
    have hnot : ∀ {cs : List Char}, cs.all (·.toNat < 128) = true → c ∉ cs := by
      intro cs hcs hmem
      have hlt : c.toNat < 128 := of_decide_eq_true (List.all_eq_true.mp hcs c hmem)
      omega
    rw [toLower_of_le hc]
    exact iff_of_false (hnot hlower) (hnot hcases)

/-- The letters of dates are those of a list. -/
theorem isDateLetter_iff (c : Char) : isDateLetter c = true ↔ c ∈ dateLetters := by
  rw [isDateLetter, decide_eq_true_iff]
  exact toLower_mem_iff (by decide) (by decide) (by decide) c

/-- So are the letters of elapsed times. -/
theorem isElapsedLetter_iff (c : Char) : isElapsedLetter c = true ↔ c ∈ elapsedLetters := by
  rw [isElapsedLetter, decide_eq_true_iff]
  exact toLower_mem_iff (by decide) (by decide) (by decide) c

/-- A bracket counts elapsed time if it is not empty and holds letters of it only. -/
theorem isElapsed_eq (content : List Char) :
    isElapsed content = (!content.isEmpty && content.all elapsedLetters.contains) := by
  have hletter : isElapsedLetter = elapsedLetters.contains := by
    funext c
    rw [Bool.eq_iff_iff, isElapsedLetter_iff, List.contains_iff_mem]
  rw [isElapsed, hletter]

/-! ## Codes -/

/-- What follows the end of an item. -/
theorem behind_append {stop : Char} {content : List Char} (h : stop ∉ content) (rest : List Char) :
    behind stop (content ++ stop :: rest) = rest := by
  rw [behind, (Text.cut_at h).2]
  rfl

/-- A character that begins nothing longer counts for itself. -/
theorem isDateCode_cons {c : Char} (h : c ∉ openers) (rest : List Char) :
    isDateCode (c :: rest) = (isDateLetter c || isDateCode rest) := by
  have hquote : c ≠ '"' := by
    rintro rfl
    exact h (by decide)
  have hbracket : c ≠ '[' := by
    rintro rfl
    exact h (by decide)
  have hescape : ¬ isEscape c = true := by
    intro he
    have hmark : c ∈ ['\\', '_', '*'] := of_decide_eq_true he
    exact h (List.mem_cons_of_mem _ (List.mem_cons_of_mem _ hmark))
  rw [isDateCode, if_neg hquote, if_neg hbracket, if_neg hescape]

/-- **A code that begins with an item** shows a date if the item does or the rest. -/
theorem isDateCode_append (item : Item) (rest : List Char) :
    isDateCode (item.chars ++ rest) = (item.showsDate || isDateCode rest) := by
  cases item with
  | quoted content closed =>
    have hchars : (Item.quoted content closed).chars ++ rest = '"' :: (content ++ '"' :: rest) := by
      simp [Item.chars]
    -- The text ends at the first quote, which is its own.
    rw [hchars, isDateCode, if_pos rfl, behind_append closed, Item.showsDate, Bool.false_or]
  | bracket content closed =>
    have hchars : (Item.bracket content closed).chars ++ rest = '[' :: (content ++ ']' :: rest) := by
      simp [Item.chars]
    have helapsed : isElapsed content = (Item.bracket content closed).showsDate := isElapsed_eq content
    rw [hchars, isDateCode, if_neg (by decide), if_pos rfl, (Text.cut_at closed).1,
      behind_append closed, helapsed]
  | escaped mark marks c =>
    have hquote : mark ≠ '"' := by
      rintro rfl
      exact absurd marks (by decide)
    have hbracket : mark ≠ '[' := by
      rintro rfl
      exact absurd marks (by decide)
    have hescape : isEscape mark = true := decide_eq_true marks
    show isDateCode (mark :: c :: rest) = (false || isDateCode rest)
    rw [isDateCode, if_neg hquote, if_neg hbracket, if_pos hescape, Bool.false_or]
    rfl
  | letter c names =>
    have hopener : c ∉ openers := by
      intro hc
      have hdisjoint : openers.all (fun d => !dateLetters.contains d) = true := by decide
      simpa [names] using List.all_eq_true.mp hdisjoint c hc
    rw [show (Item.letter c names).chars ++ rest = c :: rest from rfl, isDateCode_cons hopener,
      (isDateLetter_iff c).mpr names, Item.showsDate]
  | plain c alone means =>
    have hletter : isDateLetter c = false := by
      rw [Bool.eq_false_iff, ne_eq, isDateLetter_iff]
      exact means
    rw [show (Item.plain c alone means).chars ++ rest = c :: rest from rfl, isDateCode_cons alone,
      hletter, Item.showsDate]

/-- **A code that is written as items** shows a date if one of them does. -/
theorem isDateCode_spelling (items : List Item) :
    isDateCode (spelling items) = items.any Item.showsDate := by
  induction items with
  | nil => rw [spelling, List.flatMap_nil, isDateCode, List.any_nil]
  | cons item items ih =>
    rw [spelling, List.flatMap_cons, isDateCode_append, ← spelling, ih, List.any_cons]

/-- Items that say nothing may be left out. -/
theorem any_showsDate_filter (items : List Item) :
    (items.filter fun item => !item.isSilent).any Item.showsDate = items.any Item.showsDate := by
  rw [List.any_filter]
  refine List.any_congr rfl fun item => ?_
  cases hsilent : item.isSilent with
  | false => rfl
  | true => rw [Item.showsDate_of_isSilent hsilent]; rfl

/-- **Which codes show dates**: those with an item that is the letter of a date or a bracket that
counts elapsed time. Quoted texts, escapes and other brackets anywhere among the items make no
difference. -/
theorem isDateCode_items :
    (∀ items : List Item, isDateCode (spelling items) = true ↔
      ∃ item ∈ items, (∃ c names, item = .letter c names) ∨
        ∃ content closed, item = .bracket content closed ∧ content ≠ [] ∧
          ∀ c ∈ content, c ∈ elapsedLetters) ∧
    ∀ items items' : List Item,
      (items.filter fun item => !item.isSilent) = (items'.filter fun item => !item.isSilent) →
        isDateCode (spelling items) = isDateCode (spelling items') := by
  refine ⟨fun items => ?_, fun items items' hsame => ?_⟩
  · rw [isDateCode_spelling, List.any_eq_true]
    simp only [Item.showsDate_iff]
  · rw [isDateCode_spelling, isDateCode_spelling, ← any_showsDate_filter items, hsame,
      any_showsDate_filter]

/-- A locale, a quoted letter and an escaped one make no date of a digit. -/
theorem isDateCode_items_aroundDigit :
    isDateCode ['[', '$', '-', '4', '0', '9', ']', '"', 'd', '"', '0', '\\', 'm'] = isDateCode ['0'] ∧
      isDateCode ['0'] = false := by
  constructor
  · exact isDateCode_items.2
      [.bracket ['$', '-', '4', '0', '9'] (by decide), .quoted ['d'] (by decide),
        .plain '0' (by decide) (by decide), .escaped '\\' (by decide) 'm']
      [.plain '0' (by decide) (by decide)] rfl
  · rw [Bool.eq_false_iff]
    intro h
    obtain ⟨item, hitem, hshows⟩ :=
      (isDateCode_items.1 [.plain '0' (by decide) (by decide)]).mp h
    simp_all

end Xlsx.DateFormat
