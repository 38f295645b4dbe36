import TieredStore.Error

/-!
# Encodings

The two ways in which data become bytes: packed, for any data, and plain, for bytes and text that
programs without the packed form can read too.
-/

namespace TieredStore

inductive Encoding where
  | packed
  | plain
  deriving DecidableEq, Repr

namespace Encoding

def encode : Encoding → Datum → Except Error Bytes
  | .packed, d => (Packed.encode d).mapError fun fault => .codec (.packed fault)
  | .plain, d => (Plain.encode d).mapError fun fault => .codec (.plain fault)

def decode : Encoding → Shape → Bytes → Except Error Datum
  | .packed, shape, bs => (Packed.decode shape bs).mapError fun fault => .codec (.packed fault)
  | .plain, shape, bs => (Plain.decode shape bs).mapError fun fault => .codec (.plain fault)

end Encoding

end TieredStore
