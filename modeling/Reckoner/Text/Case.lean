namespace Reckoner.Text

-- The letter that stands for a letter in both cases. Lexemes are spelled with ASCII letters, and the
-- only letters outside ASCII that fold onto one of them are the long s and the kelvin sign.
def fold (c : Char) : Char :=
  if c = '\u017f' then 's' else if c = '\u212a' then 'k' else c.toLower

def sameLetter (c d : Char) : Bool :=
  fold c == fold d

theorem sameLetter_refl (c : Char) : sameLetter c c :=
  beq_self_eq_true _

end Reckoner.Text
