/-!
# The order of strings

Strings are ordered by their UTF-8 bytes: the first byte that differs decides, and a string sorts
before its extensions. `compareText` is a lawful total order.
-/

namespace EntityGraph

/-- The UTF-8 bytes of a string. -/
def utf8 (s : String) : List UInt8 := s.toByteArray.data.toList

theorem utf8_inj {s t : String} (h : utf8 s = utf8 t) : s = t := by
  apply String.toByteArray_inj.1
  apply ByteArray.ext
  exact Array.toList_inj.1 h

/-- Orders strings by their UTF-8 bytes. -/
def compareText (s t : String) : Ordering := compare (utf8 s) (utf8 t)

instance : Std.TransCmp compareText :=
  inferInstanceAs (Std.TransCmp (compareOn utf8))

instance : Std.LawfulEqCmp compareText where
  compare_self {s} := (Std.ReflCmp.compare_self : compare (utf8 s) (utf8 s) = .eq)
  eq_of_compare h := utf8_inj (Std.LawfulEqOrd.eq_of_compare h)

end EntityGraph
