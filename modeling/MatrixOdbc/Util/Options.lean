import Mathlib.Data.List.Perm.Basic
import Mathlib.Data.List.Nodup
import Mathlib.Logic.Function.Basic
import MatrixOdbc.Util.StringUtil

/-!
# Data-source options

The option classes of `util/installer.h`, the option lists of `DataSource` and
its keyword map. `MFA_ENABLED` is not defined by the repository, so the
multi-factor options are absent. The UTF-8 copy that `optionStr` keeps beside
the wide text is left out: no function modelled here reads it.
-/

namespace MatrixOdbc.Util

/-- A wide-string constant. -/
def W (text : List Char) : SQLWSTRING := text.map wide

/-- The options of `STR_OPTIONS_LIST`. -/
inductive StrOption where
  | DSN | DRIVER | DESCRIPTION | SERVER | UID | PWD | DATABASE | SOCKET | INITSTMT | CHARSET
  | SSL_KEY | SSL_CERT | SSL_CA | SSL_CAPATH | SSL_CIPHER | SSL_MODE | RSAKEY | SAVEFILE
  | PLUGIN_DIR | DEFAULT_AUTH | LOAD_DATA_LOCAL_DIR | OCI_CONFIG_FILE | OCI_CONFIG_PROFILE
  | AUTHENTICATION_KERBEROS_MODE | TLS_VERSIONS | SSL_CRL | SSL_CRLPATH | SSLVERIFY
  | OPENTELEMETRY | OPENID_TOKEN_FILE
  deriving DecidableEq

/-- The options of `INT_OPTIONS_LIST`. -/
inductive IntOption where
  | PORT | READTIMEOUT | WRITETIMEOUT | CLIENT_INTERACTIVE | PREFETCH | WEBAUTHN_DEVICE_NUMBER
  deriving DecidableEq

/-- The options of `BOOL_OPTIONS_LIST`. -/
inductive BoolOption where
  | FOUND_ROWS | BIG_PACKETS | COMPRESSED_PROTO | NO_BIGINT | SAFE | AUTO_RECONNECT
  | AUTO_IS_NULL | NO_BINARY_RESULT | CAN_HANDLE_EXP_PWD | ENABLE_CLEARTEXT_PLUGIN
  | GET_SERVER_PUBLIC_KEY | NO_PROMPT | DYNAMIC_CURSOR | NO_DEFAULT_CURSOR | NO_LOCALE
  | PAD_SPACE | NO_CACHE | FULL_COLUMN_NAMES | IGNORE_SPACE | NAMED_PIPE | NO_CATALOG | NO_SCHEMA
  | USE_MYCNF | NO_TRANSACTIONS | FORWARD_CURSOR | MULTI_STATEMENTS | COLUMN_SIZE_S32
  | MIN_DATE_TO_ZERO | ZERO_DATE_TO_MIN | DFLT_BIGINT_BIND_STR | LOG_QUERY | NO_SSPS | NO_TLS_1_2
  | NO_TLS_1_3 | NO_DATE_OVERFLOW | ENABLE_LOCAL_INFILE | ENABLE_DNS_SRV | MULTI_HOST
  deriving DecidableEq

/-- The keyword constants `W_...` of `StrOption`. -/
def StrOption.keyword : StrOption → SQLWSTRING
  | .DSN => W ['D', 'S', 'N']
  | .DRIVER => W ['D', 'R', 'I', 'V', 'E', 'R']
  | .DESCRIPTION => W ['D', 'E', 'S', 'C', 'R', 'I', 'P', 'T', 'I', 'O', 'N']
  | .SERVER => W ['S', 'E', 'R', 'V', 'E', 'R']
  | .UID => W ['U', 'I', 'D']
  | .PWD => W ['P', 'W', 'D']
  | .DATABASE => W ['D', 'A', 'T', 'A', 'B', 'A', 'S', 'E']
  | .SOCKET => W ['S', 'O', 'C', 'K', 'E', 'T']
  | .INITSTMT => W ['I', 'N', 'I', 'T', 'S', 'T', 'M', 'T']
  | .CHARSET => W ['C', 'H', 'A', 'R', 'S', 'E', 'T']
  | .SSL_KEY => W ['S', 'S', 'L', '-', 'K', 'E', 'Y']
  | .SSL_CERT => W ['S', 'S', 'L', '-', 'C', 'E', 'R', 'T']
  | .SSL_CA => W ['S', 'S', 'L', '-', 'C', 'A']
  | .SSL_CAPATH => W ['S', 'S', 'L', '-', 'C', 'A', 'P', 'A', 'T', 'H']
  | .SSL_CIPHER => W ['S', 'S', 'L', '-', 'C', 'I', 'P', 'H', 'E', 'R']
  | .SSL_MODE => W ['S', 'S', 'L', '-', 'M', 'O', 'D', 'E']
  | .RSAKEY => W ['R', 'S', 'A', 'K', 'E', 'Y']
  | .SAVEFILE => W ['S', 'A', 'V', 'E', 'F', 'I', 'L', 'E']
  | .PLUGIN_DIR => W ['P', 'L', 'U', 'G', 'I', 'N', '_', 'D', 'I', 'R']
  | .DEFAULT_AUTH => W ['D', 'E', 'F', 'A', 'U', 'L', 'T', '_', 'A', 'U', 'T', 'H']
  | .LOAD_DATA_LOCAL_DIR =>
    W ['L', 'O', 'A', 'D', '_', 'D', 'A', 'T', 'A',
      '_', 'L', 'O', 'C', 'A', 'L', '_', 'D', 'I', 'R']
  | .OCI_CONFIG_FILE =>
    W ['O', 'C', 'I', '_', 'C', 'O', 'N', 'F', 'I', 'G', '_', 'F', 'I', 'L', 'E']
  | .OCI_CONFIG_PROFILE =>
    W ['O', 'C', 'I', '_', 'C', 'O', 'N', 'F', 'I', 'G', '_', 'P', 'R', 'O', 'F', 'I', 'L', 'E']
  | .AUTHENTICATION_KERBEROS_MODE =>
    W ['A', 'U', 'T', 'H', 'E', 'N', 'T', 'I', 'C', 'A', 'T', 'I', 'O', 'N',
      '-', 'K', 'E', 'R', 'B', 'E', 'R', 'O', 'S', '-', 'M', 'O', 'D', 'E']
  | .TLS_VERSIONS => W ['T', 'L', 'S', '-', 'V', 'E', 'R', 'S', 'I', 'O', 'N', 'S']
  | .SSL_CRL => W ['S', 'S', 'L', '-', 'C', 'R', 'L']
  | .SSL_CRLPATH => W ['S', 'S', 'L', '-', 'C', 'R', 'L', 'P', 'A', 'T', 'H']
  | .SSLVERIFY => W ['S', 'S', 'L', 'V', 'E', 'R', 'I', 'F', 'Y']
  | .OPENTELEMETRY => W ['O', 'P', 'E', 'N', 'T', 'E', 'L', 'E', 'M', 'E', 'T', 'R', 'Y']
  | .OPENID_TOKEN_FILE =>
    W ['O', 'P', 'E', 'N', 'I', 'D', '-', 'T', 'O', 'K', 'E', 'N', '-', 'F', 'I', 'L', 'E']

/-- The keyword constants `W_...` of `IntOption`. -/
def IntOption.keyword : IntOption → SQLWSTRING
  | .PORT => W ['P', 'O', 'R', 'T']
  | .READTIMEOUT => W ['R', 'E', 'A', 'D', 'T', 'I', 'M', 'E', 'O', 'U', 'T']
  | .WRITETIMEOUT => W ['W', 'R', 'I', 'T', 'E', 'T', 'I', 'M', 'E', 'O', 'U', 'T']
  | .CLIENT_INTERACTIVE => W ['I', 'N', 'T', 'E', 'R', 'A', 'C', 'T', 'I', 'V', 'E']
  | .PREFETCH => W ['P', 'R', 'E', 'F', 'E', 'T', 'C', 'H']
  | .WEBAUTHN_DEVICE_NUMBER =>
    W ['W', 'E', 'B', 'A', 'U', 'T', 'H', 'N', '_', 'D', 'E',
      'V', 'I', 'C', 'E', '_', 'N', 'U', 'M', 'B', 'E', 'R']

/-- The keyword constants `W_...` of `BoolOption`. -/
def BoolOption.keyword : BoolOption → SQLWSTRING
  | .FOUND_ROWS => W ['F', 'O', 'U', 'N', 'D', '_', 'R', 'O', 'W', 'S']
  | .BIG_PACKETS => W ['B', 'I', 'G', '_', 'P', 'A', 'C', 'K', 'E', 'T', 'S']
  | .COMPRESSED_PROTO =>
    W ['C', 'O', 'M', 'P', 'R', 'E', 'S', 'S', 'E', 'D', '_', 'P', 'R', 'O', 'T', 'O']
  | .NO_BIGINT => W ['N', 'O', '_', 'B', 'I', 'G', 'I', 'N', 'T']
  | .SAFE => W ['S', 'A', 'F', 'E']
  | .AUTO_RECONNECT => W ['A', 'U', 'T', 'O', '_', 'R', 'E', 'C', 'O', 'N', 'N', 'E', 'C', 'T']
  | .AUTO_IS_NULL => W ['A', 'U', 'T', 'O', '_', 'I', 'S', '_', 'N', 'U', 'L', 'L']
  | .NO_BINARY_RESULT =>
    W ['N', 'O', '_', 'B', 'I', 'N', 'A', 'R', 'Y', '_', 'R', 'E', 'S', 'U', 'L', 'T']
  | .CAN_HANDLE_EXP_PWD =>
    W ['C', 'A', 'N', '_', 'H', 'A', 'N', 'D', 'L', 'E', '_', 'E', 'X', 'P', '_', 'P', 'W', 'D']
  | .ENABLE_CLEARTEXT_PLUGIN =>
    W ['E', 'N', 'A', 'B', 'L', 'E', '_', 'C', 'L', 'E', 'A',
      'R', 'T', 'E', 'X', 'T', '_', 'P', 'L', 'U', 'G', 'I', 'N']
  | .GET_SERVER_PUBLIC_KEY =>
    W ['G', 'E', 'T', '_', 'S', 'E', 'R', 'V', 'E', 'R',
      '_', 'P', 'U', 'B', 'L', 'I', 'C', '_', 'K', 'E', 'Y']
  | .NO_PROMPT => W ['N', 'O', '_', 'P', 'R', 'O', 'M', 'P', 'T']
  | .DYNAMIC_CURSOR => W ['D', 'Y', 'N', 'A', 'M', 'I', 'C', '_', 'C', 'U', 'R', 'S', 'O', 'R']
  | .NO_DEFAULT_CURSOR =>
    W ['N', 'O', '_', 'D', 'E', 'F', 'A', 'U', 'L', 'T', '_', 'C', 'U', 'R', 'S', 'O', 'R']
  | .NO_LOCALE => W ['N', 'O', '_', 'L', 'O', 'C', 'A', 'L', 'E']
  | .PAD_SPACE => W ['P', 'A', 'D', '_', 'S', 'P', 'A', 'C', 'E']
  | .NO_CACHE => W ['N', 'O', '_', 'C', 'A', 'C', 'H', 'E']
  | .FULL_COLUMN_NAMES =>
    W ['F', 'U', 'L', 'L', '_', 'C', 'O', 'L', 'U', 'M', 'N', '_', 'N', 'A', 'M', 'E', 'S']
  | .IGNORE_SPACE => W ['I', 'G', 'N', 'O', 'R', 'E', '_', 'S', 'P', 'A', 'C', 'E']
  | .NAMED_PIPE => W ['N', 'A', 'M', 'E', 'D', '_', 'P', 'I', 'P', 'E']
  | .NO_CATALOG => W ['N', 'O', '_', 'C', 'A', 'T', 'A', 'L', 'O', 'G']
  | .NO_SCHEMA => W ['N', 'O', '_', 'S', 'C', 'H', 'E', 'M', 'A']
  | .USE_MYCNF => W ['U', 'S', 'E', '_', 'M', 'Y', 'C', 'N', 'F']
  | .NO_TRANSACTIONS =>
    W ['N', 'O', '_', 'T', 'R', 'A', 'N', 'S', 'A', 'C', 'T', 'I', 'O', 'N', 'S']
  | .FORWARD_CURSOR => W ['F', 'O', 'R', 'W', 'A', 'R', 'D', '_', 'C', 'U', 'R', 'S', 'O', 'R']
  | .MULTI_STATEMENTS =>
    W ['M', 'U', 'L', 'T', 'I', '_', 'S', 'T', 'A', 'T', 'E', 'M', 'E', 'N', 'T', 'S']
  | .COLUMN_SIZE_S32 =>
    W ['C', 'O', 'L', 'U', 'M', 'N', '_', 'S', 'I', 'Z', 'E', '_', 'S', '3', '2']
  | .MIN_DATE_TO_ZERO =>
    W ['M', 'I', 'N', '_', 'D', 'A', 'T', 'E', '_', 'T', 'O', '_', 'Z', 'E', 'R', 'O']
  | .ZERO_DATE_TO_MIN =>
    W ['Z', 'E', 'R', 'O', '_', 'D', 'A', 'T', 'E', '_', 'T', 'O', '_', 'M', 'I', 'N']
  | .DFLT_BIGINT_BIND_STR =>
    W ['D', 'F', 'L', 'T', '_', 'B', 'I', 'G', 'I', 'N',
      'T', '_', 'B', 'I', 'N', 'D', '_', 'S', 'T', 'R']
  | .LOG_QUERY => W ['L', 'O', 'G', '_', 'Q', 'U', 'E', 'R', 'Y']
  | .NO_SSPS => W ['N', 'O', '_', 'S', 'S', 'P', 'S']
  | .NO_TLS_1_2 => W ['N', 'O', '_', 'T', 'L', 'S', '_', '1', '_', '2']
  | .NO_TLS_1_3 => W ['N', 'O', '_', 'T', 'L', 'S', '_', '1', '_', '3']
  | .NO_DATE_OVERFLOW =>
    W ['N', 'O', '_', 'D', 'A', 'T', 'E', '_', 'O', 'V', 'E', 'R', 'F', 'L', 'O', 'W']
  | .ENABLE_LOCAL_INFILE =>
    W ['E', 'N', 'A', 'B', 'L', 'E', '_', 'L', 'O',
      'C', 'A', 'L', '_', 'I', 'N', 'F', 'I', 'L', 'E']
  | .ENABLE_DNS_SRV => W ['E', 'N', 'A', 'B', 'L', 'E', '_', 'D', 'N', 'S', '_', 'S', 'R', 'V']
  | .MULTI_HOST => W ['M', 'U', 'L', 'T', 'I', '_', 'H', 'O', 'S', 'T']

/-- `STR_OPTIONS_LIST`. -/
def strOptionsList : List StrOption :=
  [.DSN, .DRIVER, .DESCRIPTION, .SERVER, .UID, .PWD, .DATABASE, .SOCKET, .INITSTMT, .CHARSET,
   .SSL_KEY, .SSL_CERT, .SSL_CA, .SSL_CAPATH, .SSL_CIPHER, .SSL_MODE, .RSAKEY, .SAVEFILE,
   .PLUGIN_DIR, .DEFAULT_AUTH, .LOAD_DATA_LOCAL_DIR, .OCI_CONFIG_FILE, .OCI_CONFIG_PROFILE,
   .AUTHENTICATION_KERBEROS_MODE, .TLS_VERSIONS, .SSL_CRL, .SSL_CRLPATH, .SSLVERIFY,
   .OPENTELEMETRY, .OPENID_TOKEN_FILE]

/-- `INT_OPTIONS_LIST`. -/
def intOptionsList : List IntOption :=
  [.PORT, .READTIMEOUT, .WRITETIMEOUT, .CLIENT_INTERACTIVE, .PREFETCH, .WEBAUTHN_DEVICE_NUMBER]

/-- `BOOL_OPTIONS_LIST`. -/
def boolOptionsList : List BoolOption :=
  [.FOUND_ROWS, .BIG_PACKETS, .COMPRESSED_PROTO, .NO_BIGINT, .SAFE, .AUTO_RECONNECT,
   .AUTO_IS_NULL, .NO_BINARY_RESULT, .CAN_HANDLE_EXP_PWD, .ENABLE_CLEARTEXT_PLUGIN,
   .GET_SERVER_PUBLIC_KEY, .NO_PROMPT, .DYNAMIC_CURSOR, .NO_DEFAULT_CURSOR, .NO_LOCALE,
   .PAD_SPACE, .NO_CACHE, .FULL_COLUMN_NAMES, .IGNORE_SPACE, .NAMED_PIPE, .NO_CATALOG,
   .NO_SCHEMA, .USE_MYCNF, .NO_TRANSACTIONS, .FORWARD_CURSOR, .MULTI_STATEMENTS,
   .COLUMN_SIZE_S32, .MIN_DATE_TO_ZERO, .ZERO_DATE_TO_MIN, .DFLT_BIGINT_BIND_STR, .LOG_QUERY,
   .NO_SSPS, .NO_TLS_1_2, .NO_TLS_1_3, .NO_DATE_OVERFLOW, .ENABLE_LOCAL_INFILE, .ENABLE_DNS_SRV,
   .MULTI_HOST]

/-- `ALIAS_OPTIONS_LIST`: further keywords for string options. -/
def aliasOptionsList : List (SQLWSTRING × StrOption) :=
  [(W ['U', 'S', 'E', 'R'], .UID),
   (W ['P', 'A', 'S', 'S', 'W', 'O', 'R', 'D'], .PWD),
   (W ['D', 'B'], .DATABASE),
   (W ['S', 'S', 'L', 'K', 'E', 'Y'], .SSL_KEY),
   (W ['S', 'S', 'L', 'C', 'E', 'R', 'T'], .SSL_CERT),
   (W ['S', 'S', 'L', 'C', 'A'], .SSL_CA),
   (W ['S', 'S', 'L', 'C', 'A', 'P', 'A', 'T', 'H'], .SSL_CAPATH),
   (W ['S', 'S', 'L', 'C', 'I', 'P', 'H', 'E', 'R'], .SSL_CIPHER),
   (W ['S', 'S', 'L', 'M', 'O', 'D', 'E'], .SSL_MODE)]

/-- `BIT_OPTIONS_LIST` with the `FLAG_...` bit of each option. -/
def bitOptionsList : List (BoolOption × ℕ) :=
  [(.FOUND_ROWS, 2), (.BIG_PACKETS, 8), (.NO_PROMPT, 16), (.DYNAMIC_CURSOR, 32),
   (.NO_DEFAULT_CURSOR, 128), (.NO_LOCALE, 256), (.PAD_SPACE, 512), (.FULL_COLUMN_NAMES, 1024),
   (.COMPRESSED_PROTO, 2048), (.IGNORE_SPACE, 4096), (.NAMED_PIPE, 8192), (.NO_BIGINT, 16384),
   (.NO_CATALOG, 32768), (.USE_MYCNF, 65536), (.SAFE, 131072), (.NO_TRANSACTIONS, 131072 <<< 1),
   (.LOG_QUERY, 131072 <<< 2), (.NO_CACHE, 131072 <<< 3), (.FORWARD_CURSOR, 131072 <<< 4),
   (.AUTO_RECONNECT, 131072 <<< 5), (.AUTO_IS_NULL, 131072 <<< 6), (.ZERO_DATE_TO_MIN, 1 <<< 24),
   (.MIN_DATE_TO_ZERO, 1 <<< 25), (.MULTI_STATEMENTS, 1 <<< 26), (.COLUMN_SIZE_S32, 1 <<< 27),
   (.NO_BINARY_RESULT, 1 <<< 28), (.DFLT_BIGINT_BIND_STR, 1 <<< 29)]
/-- The types an `optionVal` is used with, and the casts between them and
`unsigned long`. -/
class ULongCast (T : Type) where
  toULong : T → ℕ
  ofULong : ℕ → T

instance : ULongCast Int32 where
  toULong v := (v.toInt % ulongSize).toNat
  ofULong n := Int32.ofNat n

instance : ULongCast Bool where
  toULong v := if v then 1 else 0
  ofULong n := n ≠ 0

/-- `optionVal<T>`. -/
structure OptionVal (T : Type) where
  mVal : T
  mIsSet : Bool
  mIsDefault : Bool
  deriving DecidableEq

variable {T : Type} [ULongCast T]

/-- `optionVal::set_default`. -/
def OptionVal.setDefault (val : T) : OptionVal T := ⟨val, true, true⟩

/-- `optionVal::operator=(const T&)`. -/
def OptionVal.assign (val : T) : OptionVal T := ⟨val, true, false⟩

/-- `optionVal::operator=(const SQLWSTRING&)`. -/
def OptionVal.assignText (val : SQLWSTRING) : OptionVal T :=
  .assign (ULongCast.ofULong (sqlwchartoul val))

/-- `optionVal::operator SQLWSTRING`; an option without a value throws. -/
def OptionVal.text (o : OptionVal T) : Option SQLWSTRING :=
  if o.mIsSet then some (sqlwcharfromul (ULongCast.toULong o.mVal)) else none

/-- `optionStr`. -/
structure OptionStr where
  mWstr : SQLWSTRING
  mIsSet : Bool
  mIsDefault : Bool
  mIsNull : Bool
  deriving DecidableEq

/-- `optionStr::set`. -/
def OptionStr.set (val : SQLWSTRING) (isDefault : Bool) : OptionStr :=
  ⟨val, true, isDefault, false⟩

/-- `optionStr::set_default(nullptr)`. -/
def OptionStr.setDefaultNull : OptionStr := ⟨[], true, true, true⟩

/-- `optionStr::operator SQLWSTRING`; the null value throws. -/
def OptionStr.text (o : OptionStr) : Option SQLWSTRING :=
  if o.mIsNull then none else some o.mWstr

/-- What a keyword of the option map refers to. -/
inductive OptionRef where
  | str (o : StrOption)
  | int (o : IntOption)
  | bool (o : BoolOption)
  deriving DecidableEq

/-- The options of a `DataSource`. -/
structure DataSource where
  strOpt : StrOption → OptionStr
  intOpt : IntOption → OptionVal Int32
  boolOpt : BoolOption → OptionVal Bool

namespace DataSource

/-- An option is set. -/
def setStr (ds : DataSource) (o : StrOption) (v : OptionStr) : DataSource :=
  { ds with strOpt := Function.update ds.strOpt o v }

@[inherit_doc setStr] def setInt (ds : DataSource) (o : IntOption) (v : OptionVal Int32) : DataSource :=
  { ds with intOpt := Function.update ds.intOpt o v }

@[inherit_doc setStr] def setBool (ds : DataSource) (o : BoolOption) (v : OptionVal Bool) : DataSource :=
  { ds with boolOpt := Function.update ds.boolOpt o v }

/-- `is_set`. -/
def isSet (ds : DataSource) : OptionRef → Bool
  | .str o => (ds.strOpt o).mIsSet
  | .int o => (ds.intOpt o).mIsSet
  | .bool o => (ds.boolOpt o).mIsSet

/-- `is_default`. -/
def isDefault (ds : DataSource) : OptionRef → Bool
  | .str o => (ds.strOpt o).mIsDefault
  | .int o => (ds.intOpt o).mIsDefault
  | .bool o => (ds.boolOpt o).mIsDefault

/-- The `SQLWSTRING` conversion of an option. -/
def text (ds : DataSource) : OptionRef → Option SQLWSTRING
  | .str o => (ds.strOpt o).text
  | .int o => (ds.intOpt o).text
  | .bool o => (ds.boolOpt o).text

/-- `DataSource::reset`, the state of a new data source. -/
def reset : DataSource :=
  let defaults : DataSource :=
    { strOpt := fun _ => .setDefaultNull
      intOpt := fun _ => .setDefault 0
      boolOpt := fun _ => .setDefault false }
  (defaults.setInt .PORT (.setDefault 6001)).setBool .NO_SCHEMA (.assign true)

/-- `DataSource::set_numeric_options`. -/
def setNumericOptions (ds : DataSource) (options : ℕ) : DataSource :=
  bitOptionsList.foldl
    (fun ds (o, flag) => ds.setBool o (.assign (decide (0 < options &&& flag)))) ds

end DataSource

/-- The entries the `DataSource` constructor adds to `m_opt_map`, in its order. -/
def optionEntries : List (SQLWSTRING × OptionRef) :=
  strOptionsList.map (fun o => (o.keyword, .str o)) ++
  intOptionsList.map (fun o => (o.keyword, .int o)) ++
  boolOptionsList.map (fun o => (o.keyword, .bool o)) ++
  aliasOptionsList.map (fun (keyword, o) => (keyword, .str o))

/-- `std::map::emplace`: entries stay sorted by keyword, and an entry that is
already there is kept. -/
def emplace {V : Type} (keyword : SQLWSTRING) (v : V) :
    List (SQLWSTRING × V) → List (SQLWSTRING × V)
  | [] => [(keyword, v)]
  | (k, w) :: m =>
    if keyword = k then (k, w) :: m
    else if keyword < k then (keyword, v) :: (k, w) :: m
    else (k, w) :: emplace keyword v m

/-- `m_opt_map`. -/
def mOptMap : List (SQLWSTRING × OptionRef) :=
  optionEntries.foldl (fun m (keyword, ref) => emplace keyword ref m) []

/-- `::toupper` on a unit, in the C locale. -/
def toupper (c : SQLWCHAR) : SQLWCHAR :=
  if wide 'a' ≤ c ∧ c ≤ wide 'z' then c - (wide 'a' - wide 'A') else c

/-- `DataSource::get_opt`. -/
def getOpt (name : SQLWSTRING) : Option OptionRef := mOptMap.lookup (name.map toupper)

theorem emplace_perm {V : Type} {keyword : SQLWSTRING} {v : V} {m : List (SQLWSTRING × V)}
    (h : keyword ∉ m.map Prod.fst) : (emplace keyword v m).Perm ((keyword, v) :: m) := by
  induction m with
  | nil => exact .refl _
  | cons entry m ih =>
    obtain ⟨k, w⟩ := entry
    obtain ⟨hk, hm⟩ := not_or.mp (List.mem_cons.not.mp h)
    rw [emplace, if_neg hk]
    split_ifs
    · exact .refl _
    · exact ((ih hm).cons _).trans (.swap _ _ _)

/-- Adding entries with new keywords adds just these entries. -/
theorem foldl_emplace_perm {V : Type} {entries m : List (SQLWSTRING × V)}
    (h : ((m ++ entries).map Prod.fst).Nodup) :
    (entries.foldl (fun m entry => emplace entry.1 entry.2 m) m).Perm (m ++ entries) := by
  induction entries generalizing m with
  | nil => simp
  | cons entry entries ih =>
    have hmiddle : (m ++ entry :: entries).Perm ((entry :: m) ++ entries) := List.perm_middle
    have hnodup := (hmiddle.map Prod.fst).nodup_iff.mp h
    have hnew : entry.1 ∉ m.map Prod.fst := by
      simp only [List.cons_append, List.map_cons, List.map_append, List.nodup_cons,
        List.mem_append, not_or] at hnodup
      exact hnodup.1.1
    have hperm := emplace_perm (v := entry.2) hnew
    rw [List.foldl_cons]
    refine ((ih ?_).trans (hperm.append_right entries)).trans hmiddle.symm
    exact ((hperm.append_right entries).map Prod.fst).nodup_iff.mpr hnodup

/-- The units that keywords are made of: capital letters, digits, `_` and `-`. -/
def isKeywordUnit (c : SQLWCHAR) : Bool :=
  (wide 'A' ≤ c && c ≤ wide 'Z') || (wide '0' ≤ c && c ≤ wide '9') || c == wide '_' || c == wide '-'

/-- The keyword of the deprecated numeric option. -/
def W_OPTION : SQLWSTRING := W ['O', 'P', 'T', 'I', 'O', 'N']

/-- What the keyword comparison and the scanning of connection strings rely on. -/
structure KeywordOk (keyword : SQLWSTRING) : Prop where
  ne_nil : keyword ≠ []
  length_lt : keyword.length < 1000
  units : ∀ c ∈ keyword, isKeywordUnit c = true
  toupper : keyword.map toupper = keyword
  ne_option : sqlwcharcasecmp W_OPTION keyword ≠ 0

instance (keyword : SQLWSTRING) : Decidable (KeywordOk keyword) :=
  decidable_of_iff
    (keyword ≠ [] ∧ keyword.length < 1000 ∧ keyword.all isKeywordUnit = true ∧
      keyword.map toupper = keyword ∧ sqlwcharcasecmp W_OPTION keyword ≠ 0)
    ⟨fun ⟨h₁, h₂, h₃, h₄, h₅⟩ => ⟨h₁, h₂, List.all_eq_true.mp h₃, h₄, h₅⟩,
      fun h => ⟨h.ne_nil, h.length_lt, List.all_eq_true.mpr h.units, h.toupper, h.ne_option⟩⟩

set_option maxRecDepth 20000 in
/-- Every keyword of the driver is of this kind. -/
theorem optionEntries_keywordOk : ∀ entry ∈ optionEntries, KeywordOk entry.1 := by decide +kernel

theorem KeywordOk.notMem {keyword : SQLWSTRING} (h : KeywordOk keyword) {c : SQLWCHAR}
    (hc : isKeywordUnit c = false) : c ∉ keyword := by
  intro hmem
  have := h.units c hmem
  simp [hc] at this

set_option maxRecDepth 20000 in
/-- No keyword is given to two options. -/
theorem optionEntries_nodup : (optionEntries.map Prod.fst).Nodup := by decide +kernel

/-- The map holds exactly the listed entries. -/
theorem mOptMap_perm : mOptMap.Perm optionEntries := by
  have h := foldl_emplace_perm (m := []) (by simpa using optionEntries_nodup)
  simpa [mOptMap] using h

theorem mem_mOptMap {entry : SQLWSTRING × OptionRef} :
    entry ∈ mOptMap ↔ entry ∈ optionEntries := mOptMap_perm.mem_iff

theorem mOptMap_nodup : (mOptMap.map Prod.fst).Nodup :=
  (mOptMap_perm.map Prod.fst).nodup_iff.mpr optionEntries_nodup

/-- In a list with distinct keys every entry is found under its key. -/
theorem lookup_eq_some_of_mem {V : Type} {m : List (SQLWSTRING × V)}
    {entry : SQLWSTRING × V} (hnodup : (m.map Prod.fst).Nodup) (h : entry ∈ m) :
    m.lookup entry.1 = some entry.2 := by
  induction m with
  | nil => simp at h
  | cons first m ih =>
    obtain ⟨key, value⟩ := first
    obtain ⟨hfirst, hrest⟩ := List.nodup_cons.mp hnodup
    rcases List.mem_cons.mp h with rfl | hmem
    · exact List.lookup_cons_self
    · have hne : entry.1 ≠ key := by
        intro heq
        have hkey : entry.1 ∈ m.map Prod.fst := List.mem_map_of_mem hmem
        rw [heq] at hkey
        exact hfirst hkey
      have hbeq : (entry.1 == key) = false := by simpa using hne
      rw [List.lookup_cons, hbeq]
      exact ih hrest hmem

/-- The keywords of the map lead to their options. -/
theorem getOpt_keyword {entry : SQLWSTRING × OptionRef} (h : entry ∈ mOptMap) :
    getOpt entry.1 = some entry.2 := by
  have hok := optionEntries_keywordOk entry (mem_mOptMap.mp h)
  rw [getOpt, hok.toupper]
  exact lookup_eq_some_of_mem mOptMap_nodup h

/-- A name whose upper-case form is no keyword has no option. -/
theorem getOpt_eq_none {name : SQLWSTRING}
    (h : ∀ entry ∈ optionEntries, entry.1 ≠ name.map toupper) : getOpt name = none := by
  rw [getOpt, List.lookup_eq_none_iff]
  intro entry hentry
  have hne := h entry (mem_mOptMap.mp hentry)
  simpa using Ne.symm hne

end MatrixOdbc.Util
