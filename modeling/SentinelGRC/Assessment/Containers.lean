import SentinelGRC.Assessment.Dockerfile
import SentinelGRC.Python.Hashlib
import SentinelGRC.Python.JsonLoads
import SentinelGRC.Python.Paths
import SentinelGRC.Python.Str

/-!
The policy on container files. No `ADD`, no `COPY` of more of the build context than it names,
no image that can change under its reference, and a fixed user at the end of the last stage.
The policy reads the instructions of the file, and what `ONBUILD` keeps for the builds on top
of it is not among them.
-/

namespace SentinelGRC.Assessment

open Python Json

variable (F : Type) [PyFloat F] (isWord : CodePoint → Bool) (U : UnicodeTables)

/-! ### Words of a shell -/

def quotes : List CodePoint := [ofChar '\'', ofChar '"']

/-- `shlex.whitespace`. -/
def isShlexSpace (c : CodePoint) : Bool :=
  c.val == 0x20 || c.val == 0x9 || c.val == 0xD || c.val == 0xA

/-- `shlex.state`; an escape returns to a quote, or to the word when there is none. -/
inductive ShlexState
  | space
  | word
  | quote (q : CodePoint)
  | escape (back : Option CodePoint)

/-- `shlex.read_token` for all tokens of a POSIX lexer that splits at white space and has no
comments. `quoted` tells that the token has had a quote; `none` is the `ValueError` of an
open quote or escape. -/
def shlexFrom (escape : CodePoint) : ShlexState → Bool → Text → Text → Option (List Text)
  | .space, _, _, [] => some []
  | .word, quoted, token, [] => some (if token ≠ [] ∨ quoted then [token] else [])
  | .quote _, _, _, [] => none
  | .escape _, _, _, [] => none
  | .space, quoted, token, c :: rest =>
    if isShlexSpace c then shlexFrom escape .space quoted token rest
    else if c = escape then shlexFrom escape (.escape none) quoted token rest
    else if c ∈ quotes then shlexFrom escape (.quote c) quoted token rest
    else shlexFrom escape .word quoted (token ++ [c]) rest
  | .word, quoted, token, c :: rest =>
    if isShlexSpace c then
      if token ≠ [] ∨ quoted then (shlexFrom escape .space false [] rest).map (token :: ·)
      else shlexFrom escape .space quoted token rest
    else if c ∈ quotes then shlexFrom escape (.quote c) quoted token rest
    else if c = escape then shlexFrom escape (.escape none) quoted token rest
    else shlexFrom escape .word quoted (token ++ [c]) rest
  | .quote q, _, token, c :: rest =>
    if c = q then shlexFrom escape .word true token rest
    else if c = escape ∧ q = ofChar '"' then shlexFrom escape (.escape (some q)) true token rest
    else shlexFrom escape (.quote q) true (token ++ [c]) rest
  | .escape none, quoted, token, c :: rest => shlexFrom escape .word quoted (token ++ [c]) rest
  | .escape (some q), quoted, token, c :: rest =>
    let kept := if c ≠ escape ∧ c ≠ q then token ++ [escape] else token
    shlexFrom escape (.quote q) quoted (kept ++ [c]) rest

def shlexWords (escape : CodePoint) (t : Text) : Option (List Text) := shlexFrom escape .space false [] t

/-- `text.partition("=")`; `none` when there is no `=`. -/
def partitionEquals (t : Text) : Text × Option Text :=
  (t.takeWhile (· ≠ ofChar '='), (t.dropWhile (· ≠ ofChar '=')).tail?)

/-! ### Flags -/

/-- `COPY_VALUE_FLAGS`. -/
def copyValueFlags : List Text := [lit "chown", lit "chmod", lit "exclude", lit "from"]

/-- `COPY_BOOLEAN_FLAGS`. -/
def copyBooleanFlags : List Text := [lit "link", lit "parents"]

/-- `_copy_flag_value`. -/
def copyFlagValue (flag : Text) : Option (Text × Text) :=
  let (name, value) := partitionEquals (flag.drop 2)
  if name ∈ copyValueFlags then
    match value with
    | none | some [] => none
    | some value => some (name, value)
  else if name ∈ copyBooleanFlags then
    match value with
    | none => some (name, [])
    | some value => if value ∈ [lit "true", lit "false"] then some (name, value) else none
  else none

/-- The phases of the scanner of builder flags. -/
inductive FlagPhase
  | spaces
  | word
  | quote (q : CodePoint)

/-- `_finish_builder_flag_scan`. -/
def finishBuilderFlagScan (words : List Text) (buffer : Text) (blankOk : Bool) : List Text × Text :=
  (if buffer ≠ lit "--" ∧ (blankOk ∨ buffer ≠ []) then words ++ [buffer] else words, [])

/-- The loop of `_extract_builder_flags`: the flags, and what follows them. -/
def scanBuilderFlags (escape : CodePoint) :
    FlagPhase → List Text → Text → Bool → Text → List Text × Text
  | _, words, buffer, blankOk, [] => finishBuilderFlagScan words buffer blankOk
  | .spaces, words, buffer, blankOk, c :: rest =>
    if isBuildkitWhitespace c then scanBuilderFlags escape .spaces words buffer blankOk rest
    else
      match rest with
      | [] => (words, [c])
      | d :: after =>
        if c ≠ ofChar '-' ∨ d ≠ ofChar '-' then (words, c :: d :: after)
        -- The phase changes before the hyphen is taken, so the word phase reads it.
        else if c = escape then scanBuilderFlags escape .word words (buffer ++ [d]) blankOk after
        else scanBuilderFlags escape .word words (buffer ++ [c]) blankOk (d :: after)
  | .word, words, buffer, blankOk, c :: rest =>
    if isBuildkitWhitespace c then
      if buffer = lit "--" then (words, c :: rest)
      else
        let words := if blankOk ∨ buffer ≠ [] then words ++ [buffer] else words
        scanBuilderFlags escape .spaces words [] false rest
    else if c ∈ quotes then scanBuilderFlags escape (.quote c) words buffer true rest
    else if c = escape then
      match rest with
      | [] => finishBuilderFlagScan words buffer blankOk
      | d :: rest => scanBuilderFlags escape .word words (buffer ++ [d]) blankOk rest
    else scanBuilderFlags escape .word words (buffer ++ [c]) blankOk rest
  | .quote q, words, buffer, blankOk, c :: rest =>
    if c = q then scanBuilderFlags escape .word words buffer blankOk rest
    else if c = escape then
      match rest with
      | [] => finishBuilderFlagScan words buffer blankOk
      | d :: rest => scanBuilderFlags escape (.quote q) words (buffer ++ [d]) blankOk rest
    else scanBuilderFlags escape (.quote q) words (buffer ++ [c]) blankOk rest

/-- `_extract_builder_flags`. -/
def extractBuilderFlags (argument : Text) (escape : CodePoint) : List Text × Text :=
  scanBuilderFlags escape .spaces [] [] false argument

/-- The loop of `_validate_copy_flags`. -/
def validateCopyFlags : Option Text → List Text → Option (Option Text)
  | reference, [] => some reference
  | reference, flag :: flags =>
    match copyFlagValue flag with
    | none => none
    | some (name, value) =>
      if name = lit "from" then
        if reference.isSome then none else validateCopyFlags (some value) flags
      else validateCopyFlags reference flags

/-- `_copy_flags`. -/
def copyFlags (argument : Text) (escape : CodePoint) : Option (Option Text × Text) :=
  let (flags, remaining) := extractBuilderFlags argument escape
  (validateCopyFlags none flags).map fun reference => (reference, remaining)

/-! ### Sources -/

def string? : Json F → Option Text
  | .str s => some s
  | _ => none

/-- All but the last of at least two values. -/
def allButLast (values : List Text) : Option (List Text) :=
  if 2 ≤ values.length then some values.dropLast else none

/-- `_copy_sources`. -/
def copySources (remaining : Text) (escape : CodePoint) : Option (List Text) :=
  let normalized := trimBuildkitWhitespace remaining
  if normalized.head? = some (ofChar '[') then
    match (loads normalized : Except PyError (Json F)) with
    | .ok (.arr values) => (values.mapM (string? F)).bind allButLast
    | _ => none
  else (shlexWords escape normalized).bind allButLast

structure CopySpec where
  sources : List Text
  fromReference : Option Text

/-- `_copy_spec`. -/
def copySpec (argument : Text) (escape : CodePoint) : Option CopySpec := do
  let (reference, remaining) ← copyFlags argument escape
  let sources ← copySources F remaining escape
  return ⟨sources, reference⟩

/-- The `while` of `_from_spec` on the flags of a `FROM`. -/
def dropPlatform : List Text → Option (List Text)
  | [] => some []
  | token :: tokens =>
    if lit "--" <+: token then
      let (name, value) := partitionEquals (token.drop 2)
      if name ≠ lit "platform" ∨ value.getD [] = [] then none else dropPlatform tokens
    else some (token :: tokens)

/-- `token.upper() == "AS"`; of the letters outside ASCII only the long s has an `S` as its
upper case. -/
def isAs (token : Text) : Bool :=
  asciiUpper (token.map fun c => if c.val = 0x17F then ofChar 's' else c) = lit "AS"

/-- `_from_spec`. -/
def fromSpec (argument : Text) : Option (Text × Option Text) := do
  let tokens ← shlexWords 0x5C argument
  match ← dropPlatform tokens with
  | [image] => return (image, none)
  | [image, as, name] => if isAs as then return (image, some name) else none
  | _ => none

/-- `_is_prior_stage`. -/
def isPriorStage (reference : Text) (aliases : List Text) (stageCount : ℕ) : Except PyError Bool :=
  if U.lower reference ∈ aliases then .ok true
  else if reference = [] ∨ ¬ reference.all isDigit then .ok false
  else
    match pyInt reference with
    | some index => .ok (index < stageCount)
    | none => .error (.valueError (lit "Exceeds the limit (4300 digits) for integer string conversion"))

/-- `reference.rpartition(separator)[2]`, when there is a separator. -/
def afterLast (separator : Text) : Text → Option Text
  | [] => none
  | c :: rest =>
    match afterLast separator rest with
    | some tail => some tail
    | none => if separator <+: c :: rest then some ((c :: rest).drop separator.length) else none

/-- `_is_digest_pinned_reference`. -/
def isDigestPinnedReference (reference : Text) : Bool :=
  (afterLast (lit "@sha256:") reference).any fun digest => digest.length = 64 && digest.all isLowerHex

/-- `_from_reference`: whether the image is immutable, and the alias. -/
def fromReference (argument : Text) (aliases : List Text) (stageCount : ℕ) (allowed : List Text) :
    Except PyError (Bool × Option Text) :=
  match fromSpec argument with
  | none => .ok (false, none)
  | some (image, name) => do
    let prior ← isPriorStage U image aliases stageCount
    return (prior || image ∈ allowed || isDigestPinnedReference image, name)

/-- A source that is absolute, is on a drive, is a variable or a pattern, climbs, or comes to the
root of the build context. -/
def BroadSource (source : Text) : Prop :=
  let portable := source.map fun c => if c = ofChar '\\' then ofChar '/' else c
  portable.head? = some (ofChar '/') ∨
    (∃ letter rest, portable = letter :: ofChar ':' :: rest ∧ isAsciiLetter letter = true) ∨
    ofChar '$' ∈ portable ∨ (∃ c ∈ lit "*?[]", c ∈ portable) ∨
    lit ".." ∈ portable.splitOn (ofChar '/') ∨
    ∀ component ∈ portable.splitOn (ofChar '/'), component = [] ∨ component = lit "."

/-- An `ADD`, or a `COPY` of a broad source of the build context. -/
def BroadCopy (escape : CodePoint) (instruction : Instruction) : Prop :=
  instruction.1 = lit "ADD" ∨ instruction.1 = lit "COPY" ∧ ∃ spec,
    copySpec F instruction.2 escape = some spec ∧ spec.fromReference = none ∧
      ∃ source ∈ spec.sources, BroadSource source

/-- The reference of a `FROM`, or of a `COPY --from`. -/
def Refers (escape : CodePoint) (instruction : Instruction) (reference : Text) : Prop :=
  (instruction.1 = lit "FROM" ∧ ∃ name, fromSpec instruction.2 = some (reference, name)) ∨
    instruction.1 = lit "COPY" ∧ ∃ spec, copySpec F instruction.2 escape = some spec ∧
      spec.fromReference = some reference

/-- A stage that one of the instructions declares, by its alias or by its index. -/
def DeclaredStage (instructions : List Instruction) (reference : Text) : Prop :=
  (∃ argument image name, (lit "FROM", argument) ∈ instructions ∧
    fromSpec argument = some (image, some name) ∧ name ≠ [] ∧ U.lower reference = U.lower name) ∨
    (reference.all isDigit = true ∧ ∃ index, pyInt reference = some index ∧
      index < instructions.countP fun i => i.1 = lit "FROM")

/-- A reference that ends in a full digest. -/
def DigestPinned (reference : Text) : Prop :=
  ∃ image digest, reference = image ++ lit "@sha256:" ++ digest ∧ digest.length = 64 ∧
    ∀ c ∈ digest, isLowerHex c = true

def Immutable (allowed : List Text) (earlier : List Instruction) (reference : Text) : Prop :=
  DeclaredStage U earlier reference ∨ reference ∈ allowed ∨ DigestPinned reference

/-- What an instruction may do after those before it. -/
structure Acceptable (allowed : List Text) (escape : CodePoint) (earlier : List Instruction)
    (instruction : Instruction) : Prop where
  narrow : ¬ BroadCopy F escape instruction
  immutable : ∀ reference, Refers F escape instruction reference → Immutable U allowed earlier reference

/-- A `FROM` or a `COPY` that the policy can read. -/
def Readable (escape : CodePoint) (instruction : Instruction) : Prop :=
  (instruction.1 = lit "FROM" → ∃ spec, fromSpec instruction.2 = some spec) ∧
    (instruction.1 = lit "COPY" → ∃ spec, copySpec F instruction.2 escape = some spec)

variable {F U} {escape : CodePoint} {allowed : List Text} {instructions before : List Instruction}
  {instruction : Instruction} {reference : Text}

def stageCount (instructions : List Instruction) : ℕ := instructions.countP fun i => i.1 = lit "FROM"

end SentinelGRC.Assessment
