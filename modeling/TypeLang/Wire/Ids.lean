/-!
# Reserved identifiers

Identifiers that the wire format itself uses.
-/

namespace TypeLang.Wire

def boolTrueId : UInt32 := 0x997275b5

def boolFalseId : UInt32 := 0xbc799737

def vectorId : UInt32 := 0x1cb5c415

def jsonNullId : UInt32 := 0x3f6d7b68

def jsonBoolId : UInt32 := 0xc7345e6a

def jsonNumberId : UInt32 := 0x2be0dfa4

def jsonStringId : UInt32 := 0xb71e767a

def jsonArrayId : UInt32 := 0xf7444763

def jsonObjectId : UInt32 := 0x99c1d49d

def jsonObjectValueId : UInt32 := 0xc0de1bd9

def jsonIds : List UInt32 :=
  [jsonNullId, jsonBoolId, jsonNumberId, jsonStringId, jsonArrayId, jsonObjectId]

end TypeLang.Wire
