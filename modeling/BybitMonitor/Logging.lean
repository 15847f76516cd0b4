import Mathlib
import BybitMonitor.Python.Number
import BybitMonitor.ToMathlib.Masking

/-!
# Redacted log lines

`SecretRedactionFilter` and the console handler of `setup_logging`. The filter masks the secrets in
the message of a record; the formatter then writes the message among other texts, of which the
traceback and the stack come last. What `msg % args` gives, and the texts of an exception and of a
stack, are inputs.

* `SecretRedactionFilter.not_infix_filter`: a filtered message contains no secret.
* `redacted_iff`: when a written line contains none.
-/

namespace BybitMonitor

/-- A part of a format string. -/
inductive FormatPart
  | text (text : String)
  /-- `%(name)s`. -/
  | field (name : String)
  deriving DecidableEq, Repr

/-- A log record: what `getMessage` gives, what the formatter reads for the other fields, and the
texts of `exc_info` and `stack_info`, if it has them. -/
structure LogRecord where
  getMessage : Except PyExc String
  fields : String → String
  excText : Option String := none
  stackInfo : Option String := none

/-- The mask of a secret. -/
def secretMask : List Char := ['*', '*', '*']

namespace SecretRedactionFilter

/-- `\d`, which matches the digits of every script. -/
def isDigit (c : Char) : Bool :=
  PyFloat.digitZeros.any fun start => start ≤ c.toNat && c.toNat < start + 10

/-- `[A-Za-z0-9_-]`. -/
def isTokenChar (c : Char) : Bool := c.isAlphanum || c = '_' || c = '-'

/-- The length of a match of `_TELEGRAM_TOKEN_RE` at the beginning of the text. A colon is no digit
and the lookahead rejects all but the longest run of token characters, so that there is one way to
match. -/
def matchToken (text : List Char) : Option ℕ :=
  let digits := text.takeWhile isDigit
  match text.dropWhile isDigit with
  | ':' :: rest =>
      let body := rest.takeWhile isTokenChar
      if 6 ≤ digits.length ∧ digits.length ≤ 12 ∧ 25 ≤ body.length then
        some (digits.length + 1 + body.length)
      else none
  | _ => none

/-- `if secret and secret in message: message = message.replace(secret, "***")`. -/
def replaceSecret (message secret : List Char) : List Char :=
  if secret ≠ [] ∧ secret <:+: message then List.replaceWord secret secretMask message else message

/-- `filter`: the message that it leaves in the record. -/
def filter (secrets : List String) (message : String) : String :=
  let replaced := (secrets.map String.toList).foldl replaceSecret message.toList
  String.ofList (List.substitute matchToken secretMask 0 replaced)

end SecretRedactionFilter

namespace Formatter

/-- A part of the format with the values of the record. -/
def render (record : LogRecord) (message : String) : FormatPart → String
  | .text text => text
  | .field name => if name = "message" then message else record.fields name

/-- `s = s + text` on a new line, if there is a text. -/
def appendBlock (s : String) : Option String → String
  | none => s
  | some text =>
      if text = "" then s
      else if s.toList.getLast? = some '\n' then s ++ text
      else s ++ "\n" ++ text

/-- `format`, for a record with this message. -/
def format (fmt : List FormatPart) (record : LogRecord) (message : String) : String :=
  appendBlock (appendBlock (String.join (fmt.map (render record message))) record.excText)
    record.stackInfo

end Formatter

/-- The message that is formatted: the root logger filters its own records as well. -/
def redactedMessage (secrets : List String) (root : Bool) (message : String) : String :=
  SecretRedactionFilter.filter secrets
    (if root then SecretRedactionFilter.filter secrets message else message)

/-- What the console handler writes for a record with this message. -/
def writtenLine (secrets : List String) (fmt : List FormatPart) (root : Bool) (record : LogRecord)
    (message : String) : String :=
  Formatter.format fmt record (redactedMessage secrets root message) ++ "\n"

/-- What a call of a logger writes; a template that its arguments do not fit raises. -/
def emitRecord (secrets : List String) (fmt : List FormatPart) (root : Bool) (record : LogRecord) :
    Except PyExc String :=
  writtenLine secrets fmt root record <$> record.getMessage

/-! ## Filtered messages -/

namespace SecretRedactionFilter

variable {secrets : List String} {word message : List Char}

theorem not_mem_secretMask (hword : '*' ∉ word) : ∀ c ∈ word, c ∉ secretMask := by
  intro c hc hmask
  obtain rfl : c = '*' := by simpa [secretMask] using hmask
  exact hword hc

/-- Masking parts of a text does not create a secret. -/
theorem infix_of_infix_substitute {find : List Char → Option ℕ} (hne : word ≠ [])
    (hword : '*' ∉ word) (h : word <:+: List.substitute find secretMask 0 message) :
    word <:+: message :=
  (List.masked_substitute 0).infix_unmasked (by decide) hne (not_mem_secretMask hword) h

/-- The replacement of another secret does not bring a secret back. -/
theorem infix_of_infix_replaceSecret {secret : List Char} (hne : word ≠ [])
    (hword : '*' ∉ word) (h : word <:+: replaceSecret message secret) : word <:+: message := by
  rw [replaceSecret] at h
  split at h
  · exact infix_of_infix_substitute hne hword h
  · exact h

/-- A secret is gone after its own replacement. -/
theorem not_infix_replaceSecret (hne : word ≠ []) (hword : '*' ∉ word) :
    ¬ word <:+: replaceSecret message word := by
  rw [replaceSecret]
  split
  · exact List.not_infix_replaceWord (by decide) hne (not_mem_secretMask hword)
  · rename_i hnone
    exact fun h => hnone ⟨hne, h⟩

theorem infix_of_infix_foldl {others : List (List Char)} (hne : word ≠ []) (hword : '*' ∉ word)
    (h : word <:+: others.foldl replaceSecret message) : word <:+: message := by
  -- by induction on the secrets that are replaced
  induction others generalizing message with
  | nil => exact h
  | cons secret others ih => exact infix_of_infix_replaceSecret hne hword (ih h)

/-- A filtered message contains no secret. -/
theorem not_infix_filter (hsecrets : ∀ secret ∈ secrets, secret ≠ "" ∧ '*' ∉ secret.toList)
    {secret : String} (hmem : secret ∈ secrets) (message : String) :
    ¬ secret.toList <:+: (filter secrets message).toList := by
  obtain ⟨hne, hstar⟩ := hsecrets secret hmem
  have hne : secret.toList ≠ [] := by simpa using hne
  -- the secrets before it may change the message, those after it do not bring it back
  obtain ⟨before, after, rfl⟩ := List.append_of_mem hmem
  intro h
  rw [filter, String.toList_ofList] at h
  have hreplaced := infix_of_infix_substitute hne hstar h
  rw [List.map_append, List.map_cons, List.foldl_append, List.foldl_cons] at hreplaced
  exact not_infix_replaceSecret hne hstar (infix_of_infix_foldl hne hstar hreplaced)

end SecretRedactionFilter

/-! ## Written lines -/

/-- A part of a written line, which may be the message. -/
structure LinePart where
  text : List Char
  isMessage : Bool
  deriving DecidableEq, Repr

/-- The text of the parts. -/
def partsText (parts : List LinePart) : List Char := (parts.map LinePart.text).flatten

namespace Formatter

/-- The parts of a block on a new line. -/
def blockParts (parts : List LinePart) : Option String → List LinePart
  | none => []
  | some text =>
      if text = "" then []
      else if (partsText parts).getLast? = some '\n' then [⟨text.toList, false⟩]
      else [⟨['\n'], false⟩, ⟨text.toList, false⟩]

/-- The parts of a formatted record. -/
def formatParts (fmt : List FormatPart) (record : LogRecord) (message : String) : List LinePart :=
  let parts := fmt.map fun part =>
    ⟨(render record message part).toList, decide (part = .field "message")⟩
  let parts := parts ++ blockParts parts record.excText
  parts ++ blockParts parts record.stackInfo

theorem partsText_append (parts others : List LinePart) :
    partsText (parts ++ others) = partsText parts ++ partsText others := by
  rw [partsText, List.map_append, List.flatten_append, partsText, partsText]

/-- A block is appended as its parts are. -/
theorem toList_appendBlock {s : String} {parts : List LinePart} (h : s.toList = partsText parts)
    (block : Option String) :
    (appendBlock s block).toList = partsText (parts ++ blockParts parts block) := by
  rw [partsText_append, ← h]
  cases block with
  | none => simp [appendBlock, blockParts, partsText]
  | some text =>
      rw [appendBlock, blockParts, ← h]
      split
      · simp [partsText]
      · split
        · simp [partsText]
        · simp [partsText]

/-- The formatted record is made of its parts. -/
theorem toList_format (fmt : List FormatPart) (record : LogRecord) (message : String) :
    (format fmt record message).toList = partsText (formatParts fmt record message) := by
  rw [format, formatParts]
  -- first the fields of the format, then the two blocks
  apply toList_appendBlock
  apply toList_appendBlock
  induction fmt with
  | nil => rfl
  | cons part fmt ih =>
      rw [List.map_cons, List.map_cons, String.join_cons, String.toList_append, ih]
      rfl

end Formatter

/-- The parts of what is written for a record. -/
def lineParts (secrets : List String) (fmt : List FormatPart) (root : Bool) (record : LogRecord)
    (message : String) : List LinePart :=
  Formatter.formatParts fmt record (redactedMessage secrets root message) ++ [⟨['\n'], false⟩]

/-- The secret lies in no part around the message, and across no border. -/
structure NotAround (secret : List Char) (parts : List LinePart) : Prop where
  part : ∀ part ∈ parts, part.isMessage = false → ¬ secret <:+: part.text
  border : ∀ before part after, parts = before ++ part :: after →
    ¬ List.Straddles secret part.text (partsText after)

/-- Where a word occurs in the text of parts. -/
theorem not_infix_partsText_iff {word : List Char} (hne : word ≠ []) {parts : List LinePart} :
    ¬ word <:+: partsText parts ↔ (∀ part ∈ parts, ¬ word <:+: part.text) ∧
      ∀ before part after, parts = before ++ part :: after →
        ¬ List.Straddles word part.text (partsText after) := by
  rw [partsText, List.infix_flatten_iff hne, not_or]
  -- a word lies in a part, or across the border after one
  refine and_congr ?_ ?_
  · simp only [List.mem_map, not_exists, not_and, forall_exists_index, and_imp,
      forall_apply_eq_imp_iff₂]
  · constructor
    · rintro hnone before part after rfl hstraddles
      exact hnone ⟨before.map LinePart.text, part.text, after.map LinePart.text, by simp,
        hstraddles⟩
    · rintro hnone ⟨before, text, after, hparts, hstraddles⟩
      obtain ⟨before, rest, rfl, rfl, hrest⟩ := List.map_eq_append_iff.mp hparts
      obtain ⟨part, after, rfl, rfl, rfl⟩ := List.map_eq_cons_iff.mp hrest
      exact hnone before part after rfl hstraddles

/-- No block is the message. -/
theorem isMessage_of_mem_blockParts {parts : List LinePart} {block : Option String}
    {part : LinePart} (h : part ∈ Formatter.blockParts parts block) : part.isMessage = false := by
  unfold Formatter.blockParts at h
  split at h
  · cases h
  · split at h
    · cases h
    · split at h
      · rw [List.mem_singleton.mp h]
      · rcases List.mem_pair.mp h with rfl | rfl <;> rfl

/-- The parts that are the message have its text. -/
theorem text_of_isMessage {secrets : List String} {fmt : List FormatPart} {root : Bool}
    {record : LogRecord} {message : String} {part : LinePart}
    (hmem : part ∈ lineParts secrets fmt root record message) (hmessage : part.isMessage = true) :
    part.text = (redactedMessage secrets root message).toList := by
  simp only [lineParts, Formatter.formatParts, List.mem_append, List.mem_map,
    List.mem_singleton] at hmem
  rcases hmem with ((⟨formatPart, -, rfl⟩ | hexc) | hstack) | rfl
  · -- the field `message` is what the filter has left
    obtain rfl := of_decide_eq_true hmessage
    rfl
  · rw [isMessage_of_mem_blockParts hexc] at hmessage
    cases hmessage
  · rw [isMessage_of_mem_blockParts hstack] at hmessage
    cases hmessage
  · cases hmessage

/-- What is written for a record contains no secret exactly if none lies in the texts around the
message or across their borders. -/
theorem redacted_iff {secrets : List String}
    (hsecrets : ∀ secret ∈ secrets, secret ≠ "" ∧ '*' ∉ secret.toList) (fmt : List FormatPart)
    (root : Bool) {record : LogRecord} {message : String}
    (hmessage : record.getMessage = .ok message) :
    ∃ line, emitRecord secrets fmt root record = .ok line ∧
      ((∀ secret ∈ secrets, ¬ secret.toList <:+: line.toList) ↔
        ∀ secret ∈ secrets,
          NotAround secret.toList (lineParts secrets fmt root record message)) := by
  refine ⟨writtenLine secrets fmt root record message, by rw [emitRecord, hmessage]; rfl, ?_⟩
  have hline : (writtenLine secrets fmt root record message).toList =
      partsText (lineParts secrets fmt root record message) := by
    rw [writtenLine, String.toList_append, Formatter.toList_format, lineParts,
      Formatter.partsText_append]
    rfl
  refine forall₂_congr fun secret hsecret => ?_
  have hne : secret.toList ≠ [] := by simpa using (hsecrets secret hsecret).1
  rw [hline, not_infix_partsText_iff hne]
  -- the message is free of secrets, so only the other parts count
  constructor
  · exact fun ⟨hparts, hborders⟩ => ⟨fun part hpart _ => hparts part hpart, hborders⟩
  · refine fun ⟨hparts, hborders⟩ => ⟨fun part hpart => ?_, hborders⟩
    cases hpartMessage : part.isMessage with
    | false => exact hparts part hpart hpartMessage
    | true =>
        rw [text_of_isMessage hpart hpartMessage]
        exact SecretRedactionFilter.not_infix_filter hsecrets hsecret _

/-- The format of `setup_logging`. -/
def defaultFormat : List FormatPart :=
  [.field "asctime", .text " ", .field "levelname", .text " ", .field "name", .text " ",
    .field "message"]

/-- The fields of an error of the logger `app`. -/
def errorFields (name : String) : String :=
  if name = "asctime" then "2026-08-18 02:00:00,000"
  else if name = "levelname" then "ERROR"
  else if name = "name" then "app"
  else ""

/-- A message in which two secrets overlap. -/
def overlappingRecord : LogRecord := ⟨.ok "token=abcdef", errorFields, none, none⟩

/-- Nothing around the message has a secret, and neither has the line. -/
theorem redacted_iff_overlapping :
    ∃ line, emitRecord ["abcd", "cdef"] defaultFormat false overlappingRecord = .ok line ∧
      (∀ secret ∈ ["abcd", "cdef"], ¬ secret.toList <:+: line.toList) ∧
      ∀ secret ∈ ["abcd", "cdef"], NotAround secret.toList
        (lineParts ["abcd", "cdef"] defaultFormat false overlappingRecord "token=abcdef") := by
  obtain ⟨line, hline, hiff⟩ := @redacted_iff ["abcd", "cdef"] (by decide) defaultFormat false
    overlappingRecord "token=abcdef" rfl
  obtain rfl : writtenLine ["abcd", "cdef"] defaultFormat false overlappingRecord "token=abcdef" =
    line := Except.ok.inj hline
  have hfree : ∀ secret ∈ ["abcd", "cdef"], ¬ secret.toList <:+:
      (writtenLine ["abcd", "cdef"] defaultFormat false overlappingRecord
        "token=abcdef").toList := by decide +kernel
  exact ⟨_, hline, hfree, hiff.mp hfree⟩

/-- The text of an exception is written as it is. -/
theorem secret_in_traceback :
    let record : LogRecord := ⟨.ok "send failed", errorFields, some "ValueError: abcd", none⟩
    ¬ ∀ line, emitRecord ["abcd"] defaultFormat false record = .ok line →
      ∀ secret ∈ ["abcd"], ¬ secret.toList <:+: line.toList := by
  intro record hclaim
  refine hclaim _ rfl "abcd" (by simp) ?_
  decide +kernel

end BybitMonitor
