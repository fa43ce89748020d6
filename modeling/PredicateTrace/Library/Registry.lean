import PredicateTrace.Value.Basic

/-!
# Registered classes

The classes of the expression language that stand for host classes, and the constants that they
define. A registered class may stand for several host classes, or for none when it only holds static
members.
-/

namespace PredicateTrace.Library

open Host (HostClass)

/-- The tagged numbers. -/
def numberClasses : List HostClass :=
  [.integral .byte, .integral .short, .integral .int, .integral .long, .floating .float,
    .floating .double]

/-- The registered classes by qualified name, each with the host classes it stands for. -/
def registry : List (String × List HostClass) :=
  [("java.lang.Object", [.object]),
    ("java.lang.String", [.str]),
    ("java.lang.CharSequence", [.str]),
    ("java.lang.Boolean", [.bool]),
    ("java.lang.Character", [.char]),
    ("java.lang.Byte", [.integral .byte]),
    ("java.lang.Short", [.integral .short]),
    ("java.lang.Integer", [.integral .int]),
    ("java.lang.Long", [.integral .long]),
    ("java.lang.Float", [.floating .float]),
    ("java.lang.Double", [.floating .double]),
    ("java.lang.Number", numberClasses),
    ("java.lang.Comparable", .str :: .bool :: numberClasses),
    ("java.lang.Throwable", [.error .base]),
    ("java.lang.Exception", [.error .exception]),
    ("java.lang.RuntimeException", [.error (.failure .runtime)]),
    ("java.lang.Math", []),
    ("java.util.Objects", []),
    ("java.util.Arrays", []),
    ("java.util.Collection", [.list, .tuple, .set, .frozenset]),
    ("java.util.List", [.list, .tuple]),
    ("java.util.ArrayList", [.list]),
    ("java.util.Set", [.set, .frozenset]),
    ("java.util.HashSet", [.set]),
    ("java.util.Map", [.mapping]),
    ("java.util.HashMap", [.dict])]

/-- The host classes behind a registered name. -/
def hostClasses? (name : String) : Option (List HostClass) :=
  registry.lookup name

/-- The registered name that a simple name stands for without an import. -/
def defaultImport? (name : String) : Option String :=
  (registry.find? fun entry => TypeRef.lastComponent entry.1 = name).map Prod.fst

/-- The static constants, by owner and name. -/
def constants : List ((String × String) × Value) :=
  [(("java.lang.Integer", "MAX_VALUE"), .int (2 ^ 31 - 1)),
    (("java.lang.Integer", "MIN_VALUE"), .int (-2 ^ 31)),
    (("java.lang.Long", "MAX_VALUE"), .long (2 ^ 63 - 1)),
    (("java.lang.Long", "MIN_VALUE"), .long (-2 ^ 63)),
    (("java.lang.Short", "MAX_VALUE"), .integral .short 32767),
    (("java.lang.Short", "MIN_VALUE"), .integral .short (-32768)),
    (("java.lang.Byte", "MAX_VALUE"), .integral .byte 127),
    (("java.lang.Byte", "MIN_VALUE"), .integral .byte (-128)),
    (("java.lang.Character", "MAX_VALUE"), .char 0xffff),
    (("java.lang.Character", "MIN_VALUE"), .char 0),
    (("java.lang.Double", "NaN"), .undefinedConstant .double),
    (("java.lang.Double", "POSITIVE_INFINITY"), .double (Number.infinity false)),
    (("java.lang.Double", "NEGATIVE_INFINITY"), .double (Number.infinity true)),
    (("java.lang.Double", "MAX_VALUE"), .double (Float.ofBits 0x7fefffffffffffff)),
    (("java.lang.Double", "MIN_VALUE"), .double (Float.ofBits 1)),
    (("java.lang.Float", "NaN"), .undefinedConstant .float),
    (("java.lang.Float", "POSITIVE_INFINITY"), .single (Number.infinity false)),
    (("java.lang.Float", "NEGATIVE_INFINITY"), .single (Number.infinity true)),
    (("java.lang.Float", "MAX_VALUE"), .single (Float.ofBits 0x47efffffe0000000)),
    (("java.lang.Boolean", "TRUE"), .bool true),
    (("java.lang.Boolean", "FALSE"), .bool false),
    (("java.lang.Math", "PI"), .double (Float.ofBits 0x400921fb54442d18)),
    (("java.lang.Math", "E"), .double (Float.ofBits 0x4005bf0a8b145769))]

/-- A static constant. -/
def constant? (owner name : String) : Option Value :=
  constants.lookup (owner, name)

end PredicateTrace.Library
