import ScriptToC.CCode.Statement
import ScriptToC.Headers

/-!
# C functions and files

A function declares its locals at its head and releases what it owns at its end, unless it does so
at each return. A file consists of its includes, the runtime macros it needs, the prototypes of its
functions, the functions, and the main program.
-/

set_option autoImplicit false

namespace ScriptToC

open Template

/-- A C function definition. -/
structure CFunction where
  signature : String
  locals : List Variable
  statements : List CStmt
  releases : List Release
  isMain : Bool

/-- A C file. -/
structure CProgram where
  includes : List String
  usesArrays : Bool
  usesDicts : Bool
  functions : List CFunction
  main : CFunction

/-! ## The runtime -/

/-- The lines of a text, each ended by a newline. -/
def textOfLines (lines : List String) : String :=
  String.join (lines.map (· ++ "\n"))

/-- The macros for dynamic arrays. -/
def arrayRuntime : String :=
  textOfLines [
    "#define ARRAY(T) struct \x7b\\",
    "    int16_t size;\\",
    "    int16_t capacity;\\",
    "    T *data;\\",
    "\x7d *",
    "#define ARRAY_CREATE(array, init_capacity, init_size) do \x7b\\",
    "    array = malloc(sizeof(*array)); \\",
    "    array->data = malloc((init_capacity) * sizeof(*array->data)); \\",
    "    array->capacity = init_capacity; \\",
    "    array->size = init_size; \\",
    "\x7d while (0)",
    "#define ARRAY_PUSH(array, item) do \x7b\\",
    "    if (array->size == array->capacity) \x7b \\",
    "        array->capacity *= 2; \\",
    "        array->data = realloc(array->data, array->capacity * sizeof(*array->data)); \\",
    "    \x7d \\",
    "    array->data[array->size++] = item; \\",
    "\x7d while (0)",
    "#define ARRAY_POP(array) (array->size != 0 ? array->data[--array->size] : 0)"]

/-- The macros and the search function for dictionaries. -/
def dictRuntime : String :=
  textOfLines [
    "#define DICT(T) struct \x7b\\",
    "    ARRAY(const char *) index;\\",
    "    ARRAY(T) values;\\",
    "\x7d *",
    "#define DICT_CREATE(dict, init_capacity) do \x7b\\",
    "    dict = malloc(sizeof(*dict)); \\",
    "    ARRAY_CREATE(dict->index, init_capacity, 0); \\",
    "    ARRAY_CREATE(dict->values, init_capacity, 0); \\",
    "\x7d while (0)",
    "int16_t dict_find_pos(const char **keys, int16_t keys_size, const char *key)",
    "\x7b",
    "    int16_t i;",
    "    for (i = 0; i < keys_size; i++)",
    "        if (!strcmp(keys[i], key))",
    "            return i;",
    "    return -1;",
    "\x7d",
    "#define DICT_GET(dict, key) " ++
      "dict->values->data[dict_find_pos(dict->index->data, dict->index->size, key)]",
    "#define DICT_SET(dict, key, value) do \x7b\\",
    "    int16_t dict_set_pos = " ++
      "dict_find_pos(dict->index->data, dict->index->size, key); \\",
    "    if (dict_set_pos < 0) \x7b \\",
    "        ARRAY_PUSH(dict->index, key); \\",
    "        ARRAY_PUSH(dict->values, value); \\",
    "    \x7d else \\",
    "        dict->values->data[dict_set_pos] = value; \\",
    "\x7d while (0)"]

/-! ## Printing -/

/-- The template of a function. -/
def functionTemplate : Template :=
  slot "signature" ++ lit "\n\x7b\n    " ++ items "variables" ++ lit "\n    " ++
    items "statements" ++ lit "\n    " ++ items "destructors" ++ lit "\n" ++
    ifField "is_main" (lit "    return 0;\n") done ++ lit "\x7d\n"

/-- The template of a file. -/
def programTemplate : Template :=
  forEach "headers" "" (lit "#include <" ++ slot this ++ lit ".h>\n") ++ lit "\n" ++
    ifField "uses_arrays" (lit "\n" ++ slot "array_runtime" ++ lit "\n") done ++
    ifField "uses_dicts" (lit "\n" ++ slot "dict_runtime" ++ lit "\n") done ++
    ifField "has_functions"
      (lit "\n" ++ forEach "prototypes" "" (slot this ++ lit ";\n") ++ lit "\n\n" ++
        forEach "functions" "\n" (slot this) ++ lit "\n") done ++
    lit "\n" ++ slot "main" ++ lit "\n"

/-- The object that prints a function. -/
def CFunction.toValue (function : CFunction) : Value :=
  .object "CFunction" functionTemplate
    [("signature", .text function.signature),
      ("variables", .list (function.locals.map Variable.toValue)),
      ("statements", .list (function.statements.map CStmt.toValue)),
      ("destructors", .list (function.releases.map Release.toValue)),
      ("is_main", .flag function.isMain)]

/-- The object that prints a file. -/
def CProgram.toValue (program : CProgram) : Value :=
  .object "CProgram" programTemplate
    [("headers", .texts program.includes),
      ("uses_arrays", .flag program.usesArrays),
      ("array_runtime", .text arrayRuntime),
      ("uses_dicts", .flag program.usesDicts),
      ("dict_runtime", .text dictRuntime),
      ("has_functions", .flag !program.functions.isEmpty),
      ("prototypes", .texts (program.functions.map (·.signature))),
      ("functions", .list (program.functions.map CFunction.toValue)),
      ("main", program.main.toValue)]

end ScriptToC
