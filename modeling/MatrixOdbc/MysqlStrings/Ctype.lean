import MatrixOdbc.MysqlStrings.Charset
import Mathlib.Data.Bool.AllAny

/-!
# Character types

The `ctype` function of a character set handler: the type of the character a text
begins with and the number of its bytes, which is negative for an error. A structure
`Ctype` carries what the parser relies on: an ASCII byte is a character of its own,
and the characters of the SQL syntax are neither blanks nor control characters.
-/

namespace MatrixOdbc.MysqlStrings

/-- `_MY_SPC`: spacing character. -/
def MY_SPC : ℕ := 0o10

/-- `_MY_CTR`: control character. -/
def MY_CTR : ℕ := 0o40

/-- The characters of quotes, comments, separators and parameter markers:
`'`, `"`, the backquote, `?`, `#`, `-`, `/`, `*`, `;` and `\`. -/
def syntaxBytes : List UInt8 := [0x27, 0x22, 0x60, 0x3f, 0x23, 0x2d, 0x2f, 0x2a, 0x3b, 0x5c]

/-- A handler's `ctype`, applied to the bytes up to the end of the text. -/
structure Ctype where
  ctype : List UInt8 → ℕ × ℤ
  ctype_ascii : ∀ c s, c < 0x80 → (ctype (c :: s)).2 = 1
  ctype_syntax : ∀ c ∈ syntaxBytes, ∀ s,
    (ctype (c :: s)).1 &&& MY_SPC = 0 ∧ (ctype (c :: s)).1 &&& MY_CTR = 0

/-- `my_mb_ctype_8bit` over the `ctype` array of a single-byte character set, whose
first element belongs to the end of a file. -/
def myMbCtype8bit (table : List ℕ) : List UInt8 → ℕ × ℤ
  | [] => (0, MY_CS_TOOSMALL)
  | c :: _ => (table.getD (c.toNat + 1) 0, 1)

/-- A single-byte character set. -/
def ctype8bit (table : List ℕ) (hbytes : ∀ c ∈ syntaxBytes,
    table.getD (c.toNat + 1) 0 &&& MY_SPC = 0 ∧ table.getD (c.toNat + 1) 0 &&& MY_CTR = 0) :
    Ctype where
  ctype := myMbCtype8bit table
  ctype_ascii _ _ _ := rfl
  ctype_syntax c hc _ := hbytes c hc

/-- The array of `latin1`. -/
def ctypeLatin1Array : List ℕ :=
  [0, 32, 32, 32, 32, 32, 32, 32, 32, 32, 40, 40, 40, 40, 40, 32,
    32, 32, 32, 32, 32, 32, 32, 32, 32, 32, 32, 32, 32, 32, 32, 32,
    32, 72, 16, 16, 16, 16, 16, 16, 16, 16, 16, 16, 16, 16, 16, 16,
    16, 132, 132, 132, 132, 132, 132, 132, 132, 132, 132, 16, 16, 16, 16, 16,
    16, 16, 129, 129, 129, 129, 129, 129, 1, 1, 1, 1, 1, 1, 1, 1,
    1, 1, 1, 1, 1, 1, 1, 1, 1, 1, 1, 1, 16, 16, 16, 16,
    16, 16, 130, 130, 130, 130, 130, 130, 2, 2, 2, 2, 2, 2, 2, 2,
    2, 2, 2, 2, 2, 2, 2, 2, 2, 2, 2, 2, 16, 16, 16, 16,
    32, 16, 0, 16, 2, 16, 16, 16, 16, 16, 16, 1, 16, 1, 0, 1,
    0, 0, 16, 16, 16, 16, 16, 16, 16, 16, 16, 2, 16, 2, 0, 2,
    1, 72, 16, 16, 16, 16, 16, 16, 16, 16, 16, 16, 16, 16, 16, 16,
    16, 16, 16, 16, 16, 16, 16, 16, 16, 16, 16, 16, 16, 16, 16, 16,
    16, 1, 1, 1, 1, 1, 1, 1, 1, 1, 1, 1, 1, 1, 1, 1,
    1, 1, 1, 1, 1, 1, 1, 1, 16, 1, 1, 1, 1, 1, 1, 1,
    2, 2, 2, 2, 2, 2, 2, 2, 2, 2, 2, 2, 2, 2, 2, 2,
    2, 2, 2, 2, 2, 2, 2, 2, 16, 2, 2, 2, 2, 2, 2, 2,
    2]

/-- The handler of `latin1`. -/
def ctypeLatin1 : Ctype := ctype8bit ctypeLatin1Array (List.all_iff_forall_prop.mp (by decide))

end MatrixOdbc.MysqlStrings
