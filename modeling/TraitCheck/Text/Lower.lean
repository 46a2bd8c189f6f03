/-!
Lower case, as far as it shows in the bytes of a text that is compared with plain letters.
-/

namespace TraitCheck.Text

/-- The characters, other than plain letters, whose lower case takes another number of bytes. Two of them become plain
letters. -/
def resized : List (Char × Char) :=
  [('\u0130', 'i'), ('\u023a', '\u2c65'), ('\u023e', '\u2c66'), ('\u1e9e', '\u00df'), ('\u2126', '\u03c9'),
    ('\u212a', 'k'), ('\u212b', '\u00e5'), ('\u2c62', '\u026b'), ('\u2c64', '\u027d'), ('\u2c6d', '\u0251'),
    ('\u2c6e', '\u0271'), ('\u2c6f', '\u0250'), ('\u2c70', '\u0252'), ('\u2c7e', '\u023f'), ('\u2c7f', '\u0240'),
    ('\ua78d', '\u0265'), ('\ua7aa', '\u0266'), ('\ua7ab', '\u025c'), ('\ua7ac', '\u0261'), ('\ua7ad', '\u026c'),
    ('\ua7ae', '\u026a'), ('\ua7b0', '\u029e'), ('\ua7b1', '\u0287'), ('\ua7b2', '\u029d'), ('\ua7c5', '\u0282'),
    ('\ua7cb', '\u0264'), ('\ua7dc', '\u019b')]

/-- Lower case of plain letters and of the characters above. All others stay: they and their lower case have equally
many bytes, and none of a plain letter. -/
def lowerChar (c : Char) : Char := (resized.lookup c).getD c.toLower

def lower (s : String) : String := String.ofList (s.toList.map lowerChar)

end TraitCheck.Text
