import Mathlib.Data.List.DropRight
import MatrixOdbc.Foundations.Loop
import MatrixOdbc.Util.Options

/-!
# Connection strings

`DataSource::from_kvpair` and `DataSource::to_kvpair` of `util/installer.cc`
with the helpers they use. The cursor `str` is the list of the units from it
on; `split` and `end` are offsets from the start of the keyword. The field
`inBounds` records whether every write so far stayed inside the fixed buffer
of `set_remove_brackets`; it influences nothing.
-/

namespace MatrixOdbc.Util

/-- `value_needs_escaped`: some unit is not a letter, a digit, `_`, a blank or `.`. -/
def valueNeedsEscaped : List SQLWCHAR → Bool
  | [] => false
  | c :: str =>
    if c = 0 then false
    else if wide '0' ≤ c ∧ c ≤ wide '9' then valueNeedsEscaped str
    else if wide 'a' ≤ c ∧ c ≤ wide 'z' then valueNeedsEscaped str
    else if wide 'A' ≤ c ∧ c ≤ wide 'Z' then valueNeedsEscaped str
    else if c = wide '_' ∨ c = wide ' ' ∨ c = wide '.' then valueNeedsEscaped str
    else true

/-- `optionStr::set_remove_brackets`: copy the value into `out[1024]`, taking a
pair `}}` as one bracket, and keep the copy up to its terminator. The second
component says that the copy and its terminator fit `out`. -/
def setRemoveBrackets (val : SQLWSTRING) : OptionStr × Bool :=
  let out := Doubling.undouble (wide '}') val
  (.set (out.takeWhile (· ≠ 0)) false, decide (out.length < 1024))

/-- The lambda `find_bracket_end`: the offset of the first `}` that does not
start a pair `}}`. When the text ends behind a pair, its terminator is returned. -/
def findBracketEnd : List SQLWCHAR → Option ℕ
  | [] => none
  | [c] => if c = wide '}' then some 0 else none
  | c :: c' :: wstr =>
    if c = 0 then none
    else if c ≠ wide '}' then (findBracketEnd (c' :: wstr)).map (· + 1)
    else if c' = 0 then some 0
    else if c' ≠ wide '}' then some 0
    else if charAt wstr 0 = 0 then some 2
    else (findBracketEnd wstr).map (· + 2)

/-- Remove leading blanks. -/
def skipSpaces (wstr : List SQLWCHAR) : List SQLWCHAR := wstr.dropWhile (· = wide ' ')

/-- The keyword `str[0..len]` without its trailing blanks. For an empty keyword
the source looks for blanks in front of `attribute`; the model finds none. -/
def keyword (str : List SQLWCHAR) (len : ℕ) : SQLWSTRING := (str.take len).rdropWhile (· = wide ' ')

/-- Where the value starts: behind `=` and the blanks after it. -/
def valueStart (str : List SQLWCHAR) (split : ℕ) : ℕ :=
  split + 1 + ((str.drop (split + 1)).takeWhile (· = wide ' ')).length

/-- Where the value ends before trailing blanks are removed. Both searches
begin at the keyword, not at the value. -/
def valueStop (str : List SQLWCHAR) (delim : SQLWCHAR) (start : ℕ) : ℕ :=
  if charAt str start = wide '{' then (findBracketEnd str).getD (sqlwcharlen str)
  else (sqlwcharchr str delim).getD (sqlwcharlen str)

/-- Remove trailing blanks of the value, except those in front of a bracket. -/
def trimValueEnd (str : List SQLWCHAR) (start : ℕ) : ℕ → ℕ
  | 0 => 0
  | stop + 1 =>
    if start < stop + 1 ∧ charAt str stop = wide ' ' ∧ charAt str (stop + 1) ≠ wide '}' then
      trimValueEnd str start stop
    else stop + 1

/-- The units from one offset up to another. -/
def slice (str : List SQLWCHAR) (start stop : ℕ) : SQLWSTRING := (str.drop start).take (stop - start)

/-- Step over delimiters and blanks. In a NUL-separated list a NUL is stepped
over when another unit follows it. -/
@[grind =] def skipDelims (delim : SQLWCHAR) : List SQLWCHAR → List SQLWCHAR
  | [] => []
  | c :: str =>
    if (delim ≠ 0 ∧ c = delim) ∨ (delim = 0 ∧ c = 0 ∧ charAt str 0 ≠ 0) ∨ c = wide ' ' then
      skipDelims delim str
    else c :: str

/-- The state of the outer loop of `from_kvpair`. -/
structure KvState where
  ds : DataSource
  str : List SQLWCHAR
  inBounds : Bool

/-- Store the value between the offsets `start` and `stop` under a keyword.
The result has the new data source, the end of what was read and whether the
buffer sufficed. -/
def storeValue (ds : DataSource) (attrib : SQLWSTRING) (str : List SQLWCHAR) (start stop : ℕ) :
    DataSource × ℕ × Bool :=
  if sqlwcharcasecmp W_OPTION attrib = 0 then
    (ds.setNumericOptions (sqlwchartoul (str.drop start)), stop, true)
  else
    match getOpt attrib with
    | none => (ds, stop, true)
    | some (.str o) =>
      if charAt str start = wide '{' ∧ charAt str stop = wide '}' then
        let (value, fits) := setRemoveBrackets (slice str (start + 1) stop)
        -- only this branch steps over the closing bracket
        (ds.setStr o value, stop + 1, fits)
      else
        let (value, fits) := setRemoveBrackets (slice str start stop)
        (ds.setStr o value, stop, fits)
    | some (.int o) => (ds.setInt o (.assignText (str.drop start)), stop, true)
    | some (.bool o) => (ds.setBool o (.assignText (str.drop start)), stop, true)

/-- One evaluation of the outer loop of `DataSource::from_kvpair`; the result
of the loop is the return code and the final state. -/
def fromKvpairBody (delim : SQLWCHAR) (s : KvState) : WhileLoop.Step KvState (ℕ × KvState) :=
  if charAt s.str 0 = 0 then .done (0, s)
  else if (sqlwcharchr s.str (wide '=')).isNone then .done (1, s)
  else
    let str := skipSpaces s.str
    let len := (sqlwcharchr str (wide '=')).getD 0
    -- the keyword has to fit `attribute[1000]`
    if 1000 ≤ len then .done (1, { s with str })
    else
      let attrib := keyword str len
      let start := valueStart str len
      let stop := trimValueEnd str start (valueStop str delim start)
      let (ds, stop, fits) := storeValue s.ds attrib str start stop
      .next ⟨ds, skipDelims delim (str.drop stop), s.inBounds && fits⟩

/-- `DataSource::from_kvpair` on `ds` ends with a return code and a final state. -/
def FromKvpair (ds : DataSource) (str : List SQLWCHAR) (delim : SQLWCHAR)
    (result : ℕ × KvState) : Prop :=
  WhileLoop.Returns (fromKvpairBody delim) ⟨ds, str, true⟩ result

/-- The text `to_kvpair` appends for one entry of the option map. -/
@[grind =] def kvpairText (ds : DataSource) (delim : SQLWCHAR) (entry : SQLWSTRING × OptionRef) :
    Option SQLWSTRING := do
  let value ← ds.text entry.2
  let doEscape := match entry.2 with
    | .str _ => valueNeedsEscaped value
    | _ => false
  some (entry.1 ++ [wide '='] ++ (if doEscape then [wide '{'] else []) ++
    escapeBrackets value false ++ (if doEscape then [wide '}'] else []) ++ [delim])

/-- Whether `to_kvpair` prints an entry: options that are not set or have their
default are skipped, and so is `DRIVER` beside a data source name. -/
def printed (ds : DataSource) (entry : SQLWSTRING × OptionRef) : Bool :=
  let nameIsSet := !ds.isDefault (.str .DSN)
  !(!ds.isSet entry.2 || ds.isDefault entry.2 ||
    (nameIsSet && sqlwcharcasecmp StrOption.DRIVER.keyword entry.1 == 0))

/-- `DataSource::to_kvpair`. A null string option that is printed throws. -/
def toKvpair (ds : DataSource) (delim : SQLWCHAR) : Option SQLWSTRING := do
  let texts ← (mOptMap.filter (printed ds)).mapM (kvpairText ds delim)
  some texts.flatten

end MatrixOdbc.Util
