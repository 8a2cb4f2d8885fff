import InboxServer.Domain.JsonParse

/-!
# The front-matter repair

`scripts/repair-article-frontmatter.mjs`: the scanner of JSON values and `repairDocument`.
-/

namespace InboxServer.Repair

/-- The messages of the errors; `syntaxError` is what `JSON.parse` throws. -/
inductive RepairError where
  | unterminatedJsonString | unterminatedJsonArray | unsupportedJsonValue | syntaxError
  | invalidFieldType | invalidFieldOrder | invalidFrontmatterTerminator
  deriving DecidableEq

inductive ExpectedType where
  | string | array
  deriving DecidableEq

/-- `FIELDS`: the labels and the types of the values. -/
def fields : List (String × ExpectedType) :=
  [("title: ", .string), ("source_url: ", .string), ("archived_at: ", .string),
    ("author: ", .string), ("published_at: ", .string), ("tags: ", .array)]

/-! ## The scanner -/

/-- The character goes in front of what was taken. -/
def prepend (c : Char) (taken : List Char × List Char) : List Char × List Char :=
  (c :: taken.1, taken.2)

/-- A string after its opening quote, up to its end, and what is left. -/
def takeString : Bool → List Char → Option (List Char × List Char)
  | _, [] => none
  | true, c :: rest => (takeString false rest).map (prepend c)
  | false, c :: rest =>
    if c = '\\' then (takeString true rest).map (prepend c)
    else if c = '"' then some ([c], rest)
    else (takeString false rest).map (prepend c)

/-- An array from where the loop stands: how deep, whether in a string, and whether after `\`. -/
def takeArray : Nat → Bool → Bool → List Char → Option (List Char × List Char)
  | _, _, _, [] => none
  | depth, true, escaped, c :: rest =>
    if escaped then (takeArray depth true false rest).map (prepend c)
    else if c = '\\' then (takeArray depth true true rest).map (prepend c)
    else if c = '"' then (takeArray depth false escaped rest).map (prepend c)
    else (takeArray depth true escaped rest).map (prepend c)
  | depth, false, escaped, c :: rest =>
    if c = '"' then (takeArray depth true escaped rest).map (prepend c)
    else if c = '[' then (takeArray (depth + 1) false escaped rest).map (prepend c)
    else if c = ']' then
      if depth - 1 = 0 then some ([c], rest)
      else (takeArray (depth - 1) false escaped rest).map (prepend c)
    else (takeArray depth false escaped rest).map (prepend c)

/-- `takeJsonValue` of the source from the start: `raw`, and the source from the end. -/
def takeJsonValue : List Char → Except RepairError (List Char × List Char)
  | '"' :: rest =>
    match takeString false rest with
    | some taken => .ok (prepend '"' taken)
    | none => .error .unterminatedJsonString
  | '[' :: rest =>
    match takeArray 0 false false ('[' :: rest) with
    | some taken => .ok taken
    | none => .error .unterminatedJsonArray
  | _ => .error .unsupportedJsonValue

/-- A value that `JSON.parse` finds to be of the type. -/
def takeField (expectedType : ExpectedType) (source : List Char) :
    Except RepairError (List Char × List Char) :=
  match takeJsonValue source with
  | .error error => .error error
  | .ok value =>
    match Json.parseKind value.1, expectedType with
    | none, _ => .error .syntaxError
    | some .string, .string | some .array, .array => .ok value
    | some _, _ => .error .invalidFieldType

/-! ## The repair -/

/-- `source.startsWith(label)`, with what comes after it. -/
def afterLabel (label : String) (source : List Char) : Option (List Char) :=
  if label.toList.isPrefixOf source then some (source.drop label.toList.length) else none

/-- The loop over the fields after the first one, with what is left of the line. -/
def takeFields : List (String × ExpectedType) → List Char →
    Except RepairError (List (List Char) × List Char)
  | [], source => .ok ([], source)
  | (label, expectedType) :: fields, source =>
    match afterLabel label source with
    | none => .error .invalidFieldOrder
    | some source =>
      match takeField expectedType source with
      | .error error => .error error
      | .ok (raw, source) =>
        match takeFields fields source with
        | .error error => .error error
        | .ok (rawValues, source) => .ok (raw :: rawValues, source)

/-- The lines of the front matter, one for each field. -/
def frontmatter (rawValues : List (List Char)) : List Char :=
  ['\n'].intercalate (List.zipWith (fun field raw => field.1.toList ++ raw) fields rawValues)

/-- `repairDocument`, with `none` for `null` -/
def repairDocument (content : List Char) : Except RepairError (Option (List Char)) :=
  match afterLabel "---\n" content with
  | none => .ok none
  | some rest =>
    -- `content.indexOf("\n", 4) === -1`
    if '\n' ∉ rest then .ok none
    else
      let malformed := rest.takeWhile (· ≠ '\n')
      match afterLabel "title: " malformed with
      | none => .ok none
      | some source =>
        match takeField .string source with
        | .error error => .error error
        | .ok (raw, source) =>
          if (afterLabel "source_url: " source).isNone then .ok none
          else
            match takeFields fields.tail source with
            | .error error => .error error
            | .ok (rawValues, source) =>
              if source ≠ "---".toList then .error .invalidFrontmatterTerminator
              else
                .ok (some ("---\n".toList ++ (frontmatter (raw :: rawValues) ++ ("\n---\n".toList ++
                  (rest.dropWhile (· ≠ '\n')).tail))))

end InboxServer.Repair
