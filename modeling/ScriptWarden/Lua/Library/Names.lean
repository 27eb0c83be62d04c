import ScriptWarden.Lua.Value
set_option autoImplicit false

/-!
# Lua: the names of the library

Where scripts find each function that the language comes with.
-/

namespace ScriptWarden.Lua.Library

/-- Functions that are global variables. -/
def baseNames : List (String × Builtin) :=
  [("assert", .assert), ("collectgarbage", .collectgarbage), ("dofile", .dofile), ("error", .error),
    ("getmetatable", .getmetatable), ("ipairs", .ipairs), ("load", .load), ("loadfile", .loadfile),
    ("next", .next), ("pairs", .pairs), ("pcall", .pcall), ("print", .print),
    ("rawequal", .rawequal),
    ("rawget", .rawget), ("rawlen", .rawlen), ("rawset", .rawset), ("select", .select),
    ("setmetatable", .setmetatable), ("tonumber", .tonumber), ("tostring", .tostring),
    ("type", .type), ("warn", .warn), ("xpcall", .xpcall)]

/-- Functions on tables. -/
def tableNames : List (String × Builtin) :=
  [("concat", .tableConcat), ("insert", .tableInsert), ("move", .tableMove), ("pack", .tablePack),
    ("remove", .tableRemove), ("sort", .tableSort), ("unpack", .tableUnpack)]

/-- Functions on numbers. -/
def mathNames : List (String × Builtin) :=
  [("abs", .mathAbs), ("acos", .mathAcos), ("asin", .mathAsin), ("atan", .mathAtan),
    ("ceil", .mathCeil), ("cos", .mathCos), ("deg", .mathDeg), ("exp", .mathExp),
    ("floor", .mathFloor), ("fmod", .mathFmod), ("log", .mathLog), ("max", .mathMax),
    ("min", .mathMin), ("modf", .mathModf), ("rad", .mathRad), ("random", .mathRandom),
    ("randomseed", .mathRandomseed), ("sin", .mathSin), ("sqrt", .mathSqrt), ("tan", .mathTan),
    ("tointeger", .mathTointeger), ("type", .mathType), ("ult", .mathUlt)]

/-- Functions on strings. -/
def stringNames : List (String × Builtin) :=
  [("byte", .stringByte), ("char", .stringChar), ("dump", .stringDump), ("find", .stringFind),
    ("format", .stringFormat), ("gmatch", .stringGmatch), ("gsub", .stringGsub),
    ("len", .stringLen), ("lower", .stringLower), ("match", .stringMatch), ("pack", .stringPack),
    ("packsize", .stringPacksize), ("rep", .stringRep), ("reverse", .stringReverse),
    ("sub", .stringSub), ("unpack", .stringUnpack), ("upper", .stringUpper)]

/-- The name of a function among the names of a table. -/
def nameIn (table : String) (names : List (String × Builtin)) (f : Builtin) : Option String :=
  (names.find? fun p => p.2 == f).map (table ++ ·.1)

/-- The name under which a function can be found, for messages. -/
def name? (f : Builtin) : Option String :=
  nameIn "" baseNames f <|> nameIn "table." tableNames f <|> nameIn "math." mathNames f
    <|> nameIn "string." stringNames f

end ScriptWarden.Lua.Library
