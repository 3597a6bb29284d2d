/-! # Code page 437

Names in an archive directory that are not flagged as UTF-8 hold one character in each octet. -/

namespace Xlsx.Text

/-- The characters of the octets `0x80 .. 0xFF`, in order. -/
def codePageTable : Array Char :=
  #['Ç', 'ü', 'é', 'â', 'ä', 'à', 'å', 'ç', 'ê', 'ë', 'è', 'ï', 'î', 'ì', 'Ä', 'Å', 'É', 'æ', 'Æ',
    'ô', 'ö', 'ò', 'û', 'ù', 'ÿ', 'Ö', 'Ü', '¢', '£', '¥', '₧', 'ƒ', 'á', 'í', 'ó', 'ú', 'ñ', 'Ñ',
    'ª', 'º', '¿', '⌐', '¬', '½', '¼', '¡', '«', '»', '░', '▒', '▓', '│', '┤', '╡', '╢', '╖', '╕',
    '╣', '║', '╗', '╝', '╜', '╛', '┐', '└', '┴', '┬', '├', '─', '┼', '╞', '╟', '╚', '╔', '╩', '╦',
    '╠', '═', '╬', '╧', '╨', '╤', '╥', '╙', '╘', '╒', '╓', '╫', '╪', '┘', '┌', '█', '▄', '▌', '▐',
    '▀', 'α', 'ß', 'Γ', 'π', 'Σ', 'σ', 'µ', 'τ', 'Φ', 'Θ', 'Ω', 'δ', '∞', 'φ', 'ε', '∩', '≡', '±',
    '≥', '≤', '⌠', '⌡', '÷', '≈', '°', '∙', '·', '√', 'ⁿ', '²', '■', '\u00A0']

/-- The character of one octet. -/
def codePageChar (b : UInt8) : Char :=
  if b.toNat < 0x80 then Char.ofNat b.toNat else codePageTable.getD (b.toNat - 0x80) '\uFFFD'

/-- The text of octets in code page 437. -/
def ofCodePage (octets : List UInt8) : String := String.ofList (octets.map codePageChar)

/-- Every octet of the upper half has a character. -/
theorem codePageTable_size : codePageTable.size = 128 := by decide +kernel

end Xlsx.Text
