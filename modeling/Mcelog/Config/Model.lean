import Mcelog.Common.Chain
import Mcelog.Common.CString
import Mcelog.Common.Lines

/-!
# The config file

`parse_config_file` edits every line in place and appends what it finds to a linked list
of headers, each with eleven hash chains of options. The headers and the options are two
memories with an allocation counter each; a pointer is an index, and NULL is `none`.
-/

namespace Mcelog.Config

open Common

/-! ## The store -/

/-- `SHASH` (config.c:45) -/
abbrev shash : ℕ := 11

/-- `struct opt` (config.c:47-51) -/
structure Opt where
  next : Option ℕ := none
  name : List Char := []
  val : List Char := []

/-- `struct header` (config.c:53-58) -/
structure Header where
  next : Option ℕ := none
  name : List Char := []
  opts : Fin shash → Option ℕ := fun _ => none
  optslast : Fin shash → Option ℕ := fun _ => none

/-- All headers and options, and `hlist` (config.c:60) -/
structure Config where
  headers : ℕ → Header := fun _ => {}
  numHeaders : ℕ := 0
  opts : ℕ → Opt := fun _ => {}
  numOpts : ℕ := 0
  hlist : Option ℕ := none

/-- `hash` (config.c:62-70), a djb hash in 32 bits -/
def hash (str : List Char) : Fin shash :=
  let hash : UInt32 := str.foldl (fun hash c => hash * 32 + hash + UInt32.ofNat c.toNat) 5381
  ⟨hash.toNat % shash, Nat.mod_lt _ (by decide)⟩

/-- `new_header` (config.c:72-81): the store, and the new header. -/
def newHeader (c : Config) (prevh : Option ℕ) (name : List Char) : Config × ℕ :=
  let h := c.numHeaders
  let c := { c with headers := Function.update c.headers h { name }, numHeaders := h + 1 }
  match prevh with
  | some prevh =>
    let header := { c.headers prevh with next := some h }
    ({ c with headers := Function.update c.headers prevh header }, h)
  | none => ({ c with hlist := some h }, h)

/-- A new option at the end of its hash chain (config.c:165-168, 172-176). -/
def addOpt (c : Config) (hdr : ℕ) (name val : List Char) : Config :=
  let opt := c.numOpts
  let h := hash name
  let opts := Function.update c.opts opt { name, val }
  let header := c.headers hdr
  match header.optslast h with
  | none =>
    let header := { header with
      opts := Function.update header.opts h (some opt)
      optslast := Function.update header.optslast h (some opt) }
    { c with opts, numOpts := opt + 1, headers := Function.update c.headers hdr header }
  | some last =>
    let opts := Function.update opts last { opts last with next := some opt }
    let header := { header with optslast := Function.update header.optslast h (some opt) }
    { c with opts, numOpts := opt + 1, headers := Function.update c.headers hdr header }

/-! ## Reading the file -/

/-- `empty` (config.c:83-88) -/
def empty (buf : List Char) (s : ℕ) : Bool := charAt buf (skipSpaces buf s) = '\x00'

/-- `strstrip` (config.c:117-129): the buffer that it leaves, and the pointer it returns. -/
def strstrip (buf : List Char) (s : ℕ) : List Char × ℕ :=
  let s := skipSpaces buf s
  let len := (cstr buf s).length
  -- `p = s + strlen(s) - 1; if (p <= s)`
  if s + len ≤ s + 1 then (buf, s)
  else (trimBack s (s + len) buf, s)

/-- What `parse_error` prints before it exits (config.c:90-94). -/
structure ParseError where
  line : ℕ
  msg : String
deriving DecidableEq

/-- The local variables of `parse_config_file`. -/
structure Parser where
  config : Config := {}
  hdr : Option ℕ := none
  lineno : ℕ := 1

/-- The section of a new option, the implicit one if there was no header (config.c:169-170). -/
def currentHeader (st : Parser) : Config × ℕ :=
  match st.hdr with
  | some hdr => (st.config, hdr)
  | none => newHeader st.config none "global".toList

/-- The comment is cut off (config.c:150-152). -/
def cutComment (buf : List Char) : List Char :=
  match strchr buf 0 '#' with
  | some s => buf.set s '\x00'
  | none => buf

/-- The comment and the white space around the line are cut off (config.c:150-153): the
    buffer, and the pointer `s`. -/
def editLine (line : List Char) : List Char × ℕ := strstrip (cutComment (line ++ ['\x00'])) 0

/-- One line (config.c:150-180). -/
def parseLine (st : Parser) (line : List Char) : Except ParseError Parser :=
  let (buf, s) := editLine line
  if charAt buf s = '[' then
    match strchr buf s ']' with
    | none => .error { line := st.lineno, msg := "Header without ending ]" }
    | some p =>
      if !empty buf (p + 1) then
        .error { line := st.lineno, msg := "left over characters at end of line" }
      else
        let buf := buf.set p '\x00'
        let (config, hdr) := newHeader st.config st.hdr (cstr buf (s + 1))
        .ok { config, hdr := some hdr, lineno := st.lineno + 1 }
  else
    -- The search starts at `line`, not at `s`.
    match strchr buf 0 '=' with
    | some val =>
      let buf := buf.set val '\x00'
      let (buf, name) := strstrip buf s
      let (buf, val) := strstrip buf (val + 1)
      let (config, hdr) := currentHeader st
      .ok { config := addOpt config hdr (cstr buf name) (cstr buf val),
            hdr := some hdr, lineno := st.lineno + 1 }
    | none =>
      if !empty buf s then
        .error { line := st.lineno, msg := "config file line not field nor header" }
      else .ok { st with lineno := st.lineno + 1 }

/-- The lines that `getline` returns, with their newlines. -/
def getlines (text : List Char) : List (List Char) :=
  (lines '\n' text).map (· ++ ['\n']) ++ if rest '\n' text = [] then [] else [rest '\n' text]

/-- `parse_config_file` (config.c:131-186) for a file that could be opened -/
def parseConfigFile (text : List Char) : Except ParseError Config :=
  ((getlines text).foldlM parseLine {}).map Parser.config

/-! ## Looking up an option -/

/-- The two loops of `config_string` (config.c:191-200). -/
def findOption (c : Config) (header name : List Char) : Option (List Char) :=
  let h := hash name
  findChain (fun hdr => (c.headers hdr).next) (fun hdr =>
    if (c.headers hdr).name = header then
      findChain (fun o => (c.opts o).next)
        (fun o => if (c.opts o).name = name then some (c.opts o).val else none)
        c.numOpts ((c.headers hdr).opts h)
    else none) c.numHeaders c.hlist

/-- `config_string` (config.c:188-204). The recursion for `global` ends in the first call. -/
def configString (c : Config) (header name : List Char) : Option (List Char) :=
  match findOption c header name with
  | some val => some val
  | none => if header ≠ "global".toList then findOption c "global".toList name else none

end Mcelog.Config
