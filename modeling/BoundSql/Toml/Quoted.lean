import BoundSql.Json.Reader
import BoundSql.Text.Quoted

/-!
# Quoted strings of configuration files

A string stands between double quotes, with escapes, or between single quotes,
without any; tripled quotes admit line breaks.  Writing chooses the plainest form
that needs no escapes, and falls back to escapes where no form is free of them.
-/

namespace BoundSql.Toml

/-- The control characters that no file may hold, tabs and line breaks being admitted. -/
def isControl (c : Char) : Bool :=
  (c.toNat < 0x20 && c ≠ '\t' && c ≠ '\n') || c.toNat == 0x7f

/-- The space inside a line. -/
def isSpace (c : Char) : Bool := c == ' ' || c == '\t'

/-- Drop the space in front of a token. -/
def skipSpace (cs : List Char) : List Char := cs.dropWhile isSpace

/-! ## Reading -/

def codePoint? (digits : List Char) : Option Char := do
  let values ← digits.mapM Json.hexValue
  let n := values.foldl (fun n d => n * 16 + d) 0
  if n.isValidChar then return Char.ofNat n else none

def shortEscape : Char → Option Char
  | 'b' => some '\x08'
  | 't' => some '\t'
  | 'n' => some '\n'
  | 'f' => some '\x0c'
  | 'r' => some '\r'
  | 'e' => some '\x1b'
  | '"' => some '"'
  | '\\' => some '\\'
  | _ => none

/-- The number of digits after the letter of a numeric escape. -/
def escapeWidth : Char → Option Nat
  | 'x' => some 2
  | 'u' => some 4
  | 'U' => some 8
  | _ => none

def readEscape : List Char → Option (Char × List Char)
  | [] => none
  | c :: rest =>
      match escapeWidth c with
      | some width =>
          if rest.length < width then none
          else (codePoint? (rest.take width)).map (·, rest.drop width)
      | none => (shortEscape c).map (·, rest)

theorem readEscape_length {cs rest : List Char} {c : Char} (h : readEscape cs = some (c, rest)) :
    rest.length < cs.length := by
  cases cs with
  | nil => simp [readEscape] at h
  | cons d cs =>
      simp only [readEscape] at h
      split at h
      · split at h
        · simp at h
        · simp only [Option.map_eq_some_iff, Prod.mk.injEq] at h
          obtain ⟨_, _, _, rfl⟩ := h
          simp only [List.length_drop, List.length_cons]
          omega
      · simp only [Option.map_eq_some_iff, Prod.mk.injEq] at h
        obtain ⟨_, _, _, rfl⟩ := h
        simp

/-- Put a character in front of what was read. -/
def push (c : Char) (found : Option (List Char × List Char)) : Option (List Char × List Char) :=
  found.map fun p => (c :: p.1, p.2)

/-- Read a string on one line after its opening double quote. -/
def readBasic (cs : List Char) : Option (List Char × List Char) :=
  match cs with
  | [] => none
  | c :: rest =>
      if c = '"' then some ([], rest)
      else if c = '\\' then
        match _h : readEscape rest with
        | some (d, tail) => push d (readBasic tail)
        | none => none
      else if c = '\n' || isControl c then none
      else push c (readBasic rest)
termination_by cs.length
decreasing_by
  · have := readEscape_length _h
    simp only [List.length_cons]
    omega
  · simp

/-- The quotes at the end of a string between tripled quotes, if it ends here: three that close
it, after at most two that belong to it. -/
def closing? (quote : Char) (cs : List Char) : Option (List Char × List Char) :=
  let run := (cs.takeWhile (· = quote)).take 5
  if run.length < 3 then none else some (run.drop 3, cs.drop run.length)

/-- Drop a line break after opening quotes. -/
def dropBreak : List Char → List Char
  | '\n' :: rest => rest
  | cs => cs

/-- Read a string of several lines after its opening double quotes.  While skipping, line breaks
and space are dropped. -/
def readLines (skipping : Bool) (cs : List Char) : Option (List Char × List Char) :=
  match cs with
  | [] => none
  | c :: rest =>
      if skipping && (isSpace c || c = '\n') then readLines true rest
      else
        match closing? '"' (c :: rest) with
        | some found => some found
        | none =>
            if c = '\\' then
              if (skipSpace rest).head? = some '\n' then readLines true rest
              else
                match _h : readEscape rest with
                | some (d, tail) => push d (readLines false tail)
                | none => none
            else if isControl c then none
            else push c (readLines false rest)
termination_by cs.length
decreasing_by
  · simp
  · simp
  · have := readEscape_length _h
    simp only [List.length_cons]
    omega
  · simp

/-- Read a string on one line after its opening single quote. -/
def readLiteral : List Char → Option (List Char × List Char)
  | [] => none
  | c :: rest =>
      if c = '\'' then some ([], rest)
      else if c = '\n' || isControl c then none
      else push c (readLiteral rest)

/-- Read a string of several lines after its opening single quotes. -/
def readLiteralLines : List Char → Option (List Char × List Char)
  | [] => none
  | c :: rest =>
      match closing? '\'' (c :: rest) with
      | some found => some found
      | none => if isControl c then none else push c (readLiteralLines rest)

def readQuoted : List Char → Option (List Char × List Char)
  | '"' :: '"' :: '"' :: rest => readLines false (dropBreak rest)
  | '"' :: rest => readBasic rest
  | '\'' :: '\'' :: '\'' :: rest => readLiteralLines (dropBreak rest)
  | '\'' :: rest => readLiteral rest
  | _ => none

/-! ## Writing -/

def codePointEscape (c : Char) : List Char :=
  '\\' :: 'u' :: (Text.hexPadded 4 c.toNat).map Char.toUpper

/-- One character other than a double quote or a line break as it stands between double quotes. -/
def escaped (c : Char) : List Char :=
  match c with
  | '\\' => ['\\', '\\']
  | '\x08' => ['\\', 'b']
  | '\t' => ['\\', 't']
  | '\x0c' => ['\\', 'f']
  | '\r' => ['\\', 'r']
  | c => if isControl c then codePointEscape c else [c]

/-- The inside of a string on one line between double quotes. -/
def basicChars (cs : List Char) : List Char :=
  cs.flatMap fun c =>
    match c with
    | '"' => ['\\', '"']
    | '\n' => ['\\', 'n']
    | c => escaped c

/-- The inside of a string of several lines between double quotes, of which no three may follow
each other; `run` of them come directly before. -/
def linesChars (run : Nat) : List Char → List Char
  | [] => []
  | c :: rest =>
      if c = '"' then
        if run < 2 then c :: linesChars (run + 1) rest
        else '\\' :: c :: linesChars 0 rest
      else if c = '\n' then c :: linesChars 0 rest
      else escaped c ++ linesChars 0 rest

/-- The length of the longest run of a character, after `run` of them. -/
def longestRun (quote : Char) (run : Nat) : List Char → Nat
  | [] => run
  | c :: rest =>
      if c = quote then longestRun quote (run + 1) rest else max run (longestRun quote 0 rest)

/-- The forms of a written string. -/
inductive QuoteForm where
  | basic
  | literal
  | lines
  | literalLines
deriving DecidableEq

/-- The form in which a string is written. -/
def quoteForm (cs : List Char) : QuoteForm :=
  let control := cs.any fun c => isControl c
  let backslash := cs.contains '\\'
  let broken := cs.contains '\n'
  let doubles := longestRun '"' 0 cs
  let singles := longestRun '\'' 0 cs
  if !control && !backslash && doubles = 0 && !broken then .basic
  else if !control && singles = 0 && !broken then .literal
  else if !control && !backslash && doubles ≤ 2 then .lines
  else if !control && singles ≤ 2 then .literalLines
  else if broken then .lines
  else .basic

/-- A string in the form that suits it.  A string of several lines starts on a line of its own
if it holds a line break. -/
def quoted (cs : List Char) : List Char :=
  let start := if cs.contains '\n' then ['\n'] else []
  match quoteForm cs with
  | .basic => '"' :: basicChars cs ++ ['"']
  | .literal => '\'' :: cs ++ ['\'']
  | .lines => ['"', '"', '"'] ++ start ++ linesChars 0 cs ++ ['"', '"', '"']
  | .literalLines => ['\'', '\'', '\''] ++ start ++ cs ++ ['\'', '\'', '\'']

end BoundSql.Toml
