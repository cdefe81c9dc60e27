import EntityGraph.Key.Encoding
import EntityGraph.Key.Order

/-!
# Keys sort like their bytes

The bytes of complete keys compare as the keys do.

* `SortsAs`: two byte strings that compare in one way, whatever follows them. A string that ends in
  a terminator and the eight bytes of a number are of this kind, and so is what is put together from
  such strings (`SortsAs.append`);
* `escapeBytes_sortsAs`, `bigEndian_sortsAs`, `PathElement.bytes_sortsAs`: the parts of a key;
* `Key.encode_sorts`: whole keys. In particular no two keys have the same bytes.

A beginning of a path is the one case that nothing terminates: its bytes are a beginning of the
other's bytes, and sort before them as an ancestor sorts before its descendants.
-/

namespace EntityGraph

/-- Bytes that compare as `o` whatever follows them, and as what follows them if `o` is `eq`. -/
def SortsAs (o : Ordering) (as bs : List UInt8) : Prop :=
  ∀ us vs : List UInt8, compare (as ++ us) (bs ++ vs) = o.then (compare us vs)

namespace SortsAs

variable {o o' : Ordering} {a b : UInt8} {as bs cs ds : List UInt8}

theorem nil : SortsAs .eq [] [] := fun _ _ => rfl

theorem append (h : SortsAs o as bs) (h' : SortsAs o' cs ds) :
    SortsAs (o.then o') (as ++ cs) (bs ++ ds) := by
  intro us vs
  rw [List.append_assoc, List.append_assoc, h, h', Ordering.then_assoc]

theorem cons (a b : UInt8) (h : SortsAs o as bs) :
    SortsAs ((compare a b).then o) (a :: as) (b :: bs) := by
  intro us vs
  rw [List.cons_append, List.cons_append, List.compare_cons_cons, h, Ordering.then_assoc]

/-- Equal bytes in front do not matter. -/
theorem cons_self (a : UInt8) (h : SortsAs o as bs) : SortsAs o (a :: as) (a :: bs) := by
  have := h.cons a a
  rwa [Std.ReflOrd.compare_self, Ordering.eq_then] at this

/-- The first bytes decide if they differ. -/
theorem of_lt (h : a < b) : SortsAs .lt (a :: as) (b :: bs) := by
  intro us vs
  rw [List.cons_append, List.cons_append, List.compare_cons_cons, Std.compare_eq_lt.2 h]
  rfl

theorem swap (h : SortsAs o as bs) : SortsAs o.swap bs as := by
  intro us vs
  rw [Std.OrientedOrd.eq_swap, h, Ordering.swap_then, ← Std.OrientedOrd.eq_swap]

end SortsAs

/-! ## Text and numbers -/

theorem escapeBytes_sortsAs_nil (b : UInt8) (bs : List UInt8) :
    SortsAs .lt (escapeBytes []) (escapeBytes (b :: bs)) := by
  unfold escapeBytes
  split
  · exact (SortsAs.of_lt (by decide)).cons_self 0
  · rename_i hb
    exact SortsAs.of_lt (UInt8.pos_iff_ne_zero.2 hb)

-- The terminator is below the escape of a zero byte and begins with a byte below every other one,
-- so a string sorts before its extensions; a zero byte stays below every other byte.
theorem escapeBytes_sortsAs : ∀ as bs : List UInt8,
    SortsAs (compare as bs) (escapeBytes as) (escapeBytes bs)
  | [], [] => (SortsAs.nil.cons_self _).cons_self _
  | [], b :: bs => escapeBytes_sortsAs_nil b bs
  | a :: as, [] => (escapeBytes_sortsAs_nil a as).swap
  | a :: as, b :: bs => by
    have ih := escapeBytes_sortsAs as bs
    rw [List.compare_cons_cons]
    unfold escapeBytes
    split <;> rename_i ha <;> split <;> rename_i hb
    · rw [ha, hb]
      exact (ih.cons_self 0xFF).cons_self 0
    · have h : a < b := ha ▸ UInt8.pos_iff_ne_zero.2 hb
      rw [Std.compare_eq_lt.2 h]
      exact SortsAs.of_lt (UInt8.pos_iff_ne_zero.2 hb)
    · have h : b < a := hb ▸ UInt8.pos_iff_ne_zero.2 ha
      rw [Std.compare_eq_gt.2 h]
      exact (SortsAs.of_lt (UInt8.pos_iff_ne_zero.2 ha)).swap
    · exact ih.cons a b

/-- The `k` lowest bytes of a number, the highest first. -/
def lowBytes (n : Nat) : Nat → List UInt8
  | 0 => []
  | k + 1 => UInt8.ofNat (n >>> (8 * k)) :: lowBytes n k

theorem bigEndian_eq_lowBytes (n : UInt64) : bigEndian n = lowBytes n.toNat 8 := by
  have hbyte : ∀ shift : UInt64, shift.toNat < 64 →
      (n >>> shift).toUInt8 = UInt8.ofNat (n.toNat >>> shift.toNat) := by
    intro shift h
    apply UInt8.toNat_inj.1
    simp only [UInt64.toNat_toUInt8, UInt64.toNat_shiftRight, Nat.mod_eq_of_lt h,
      UInt8.toNat_ofNat']
  simp only [bigEndian, List.map_cons, List.map_nil, lowBytes]
  repeat rw [hbyte _ (by decide)]
  rfl

theorem shiftRight_then_of_lt {m n : Nat} (h : m < n) :
    (compare (m >>> 8) (n >>> 8)).then (compare (UInt8.ofNat m) (UInt8.ofNat n)) = .lt := by
  by_cases hhigh : m >>> 8 < n >>> 8
  · rw [Nat.compare_eq_lt.2 hhigh]
    rfl
  · have heq : m >>> 8 = n >>> 8 := by omega
    have hlow : UInt8.ofNat m < UInt8.ofNat n := by
      rw [UInt8.lt_iff_toNat_lt, UInt8.toNat_ofNat', UInt8.toNat_ofNat']
      omega
    rw [heq, Std.ReflOrd.compare_self, Std.compare_eq_lt.2 hlow]
    rfl

/-- Numbers compare by what is above their lowest byte, and then by that byte. -/
theorem compare_shiftRight_then (m n : Nat) :
    (compare (m >>> 8) (n >>> 8)).then (compare (UInt8.ofNat m) (UInt8.ofNat n)) = compare m n := by
  rcases Nat.lt_trichotomy m n with h | rfl | h
  · rw [shiftRight_then_of_lt h, Nat.compare_eq_lt.2 h]
  · simp only [Std.ReflOrd.compare_self, Ordering.eq_then]
  · have := congrArg Ordering.swap (shiftRight_then_of_lt h)
    rwa [Ordering.swap_then, ← Std.OrientedOrd.eq_swap, ← Std.OrientedOrd.eq_swap,
      Ordering.swap_lt, ← Nat.compare_eq_gt.2 h] at this

theorem compare_lowBytes (m n : Nat) (us vs : List UInt8) : ∀ k : Nat,
    (compare (m >>> (8 * k)) (n >>> (8 * k))).then
      (compare (lowBytes m k ++ us) (lowBytes n k ++ vs)) = (compare m n).then (compare us vs)
  | 0 => rfl
  | k + 1 => by
    rw [← compare_lowBytes m n us vs k, ← compare_shiftRight_then (m >>> (8 * k)), Nat.mul_succ,
      Nat.shiftRight_add, Nat.shiftRight_add, lowBytes, lowBytes, List.cons_append,
      List.cons_append, List.compare_cons_cons, Ordering.then_assoc]

theorem compare_toNat (m n : UInt64) : compare m.toNat n.toNat = compare m n := by
  rcases Nat.lt_trichotomy m.toNat n.toNat with h | h | h
  · rw [Nat.compare_eq_lt.2 h, Std.compare_eq_lt.2 (UInt64.lt_iff_toNat_lt.2 h)]
  · rw [UInt64.toNat_inj.1 h, Std.ReflOrd.compare_self, Std.ReflOrd.compare_self]
  · rw [Nat.compare_eq_gt.2 h, Std.compare_eq_gt.2 (UInt64.lt_iff_toNat_lt.2 h)]

theorem bigEndian_sortsAs (m n : UInt64) : SortsAs (compare m n) (bigEndian m) (bigEndian n) := by
  intro us vs
  have hzero : ∀ a : UInt64, a.toNat >>> (8 * 8) = 0 := fun a => by
    have := a.toNat_lt
    omega
  have h := compare_lowBytes m.toNat n.toNat us vs 8
  rwa [hzero, hzero, Std.ReflOrd.compare_self, Ordering.eq_then, ← bigEndian_eq_lowBytes,
    ← bigEndian_eq_lowBytes, compare_toNat] at h

/-! ## Keys -/

theorem KeyId.bytes_sortsAs : ∀ a b : KeyId, SortsAs (a.compare b) a.bytes b.bytes
  | .number m, .number n => (bigEndian_sortsAs m n).cons_self 0x01
  | .number _, .name _ => SortsAs.of_lt (by decide)
  | .name _, .number _ => (SortsAs.of_lt (by decide)).swap
  | .name s, .name t => (escapeBytes_sortsAs (utf8 s) (utf8 t)).cons_self 0x02

theorem PathElement.bytes_sortsAs {e f : PathElement} (he : e.id.isSome) (hf : f.id.isSome) :
    SortsAs (e.compare f) e.bytes f.bytes := by
  obtain ⟨kind, _ | a⟩ := e
  · cases he
  · obtain ⟨kind', _ | b⟩ := f
    · cases hf
    · exact (escapeBytes_sortsAs (utf8 kind) (utf8 kind')).append (a.bytes_sortsAs b)

/-- The bytes of an element are not empty: there is a terminator at least. -/
theorem PathElement.exists_bytes_eq_cons (e : PathElement) : ∃ b bs, e.bytes = b :: bs := by
  unfold bytes
  cases utf8 e.kind with
  | nil => exact ⟨_, _, rfl⟩
  | cons b bs =>
    unfold escapeBytes
    split
    · exact ⟨_, _, rfl⟩
    · exact ⟨_, _, rfl⟩

/-- Paths without a missing id compare as their bytes do. -/
theorem compare_flatMap_bytes : ∀ {p q : List PathElement}, (∀ e ∈ p, e.id.isSome) →
    (∀ e ∈ q, e.id.isSome) → compare (p.flatMap PathElement.bytes) (q.flatMap PathElement.bytes) =
      List.compareLex PathElement.compare p q
  | [], [], _, _ => rfl
  | [], e :: q, _, _ => by
    obtain ⟨b, bs, he⟩ := e.exists_bytes_eq_cons
    rw [List.flatMap_nil, List.flatMap_cons, he, List.cons_append, List.compare_nil_cons]
    rfl
  | e :: p, [], _, _ => by
    obtain ⟨b, bs, he⟩ := e.exists_bytes_eq_cons
    rw [List.flatMap_nil, List.flatMap_cons, he, List.cons_append, List.compare_cons_nil]
    rfl
  | e :: p, f :: q, hp, hq => by
    have he := PathElement.bytes_sortsAs (hp e List.mem_cons_self) (hq f List.mem_cons_self)
    rw [List.flatMap_cons, List.flatMap_cons, he, List.compareLex_cons_cons, compare_flatMap_bytes]
    · exact fun e h => hp e (List.mem_cons_of_mem _ h)
    · exact fun e h => hq e (List.mem_cons_of_mem _ h)

namespace Key

theorem isSome_of_isComplete {k : Key} (h : k.isComplete) : ∀ e ∈ k.path, e.id.isSome := by
  intro e he
  rw [k.path_eq] at he
  rcases List.mem_append.1 he with he | he
  · exact k.wellFormed.complete e he
  · exact List.mem_singleton.1 he ▸ h

/-- Complete keys have bytes, which compare as the keys do; so different keys have different
bytes. -/
theorem encode_sorts {a b : Key} (ha : a.isComplete) (hb : b.isComplete) : ∃ as bs,
    a.encode = .ok as ∧ b.encode = .ok bs ∧ compare as bs = a.compare b ∧ (as = bs → a = b) := by
  have hcompare := compare_flatMap_bytes (isSome_of_isComplete ha) (isSome_of_isComplete hb)
  refine ⟨_, _, if_pos ha, if_pos hb, hcompare, fun h => ?_⟩
  have heq : a.compare b = .eq := by
    rw [h, Std.ReflOrd.compare_self] at hcompare
    exact hcompare.symm
  exact Std.LawfulEqCmp.eq_of_compare heq

/-- A name with a zero byte, beside one that goes on below a shorter name. -/
theorem encode_sorts_sample :
    let a := single ⟨"A", some (.name "x\x00y")⟩ ⟨by simp, by simp⟩
    let b := extend (single ⟨"A", some (.name "x")⟩ ⟨by simp, by simp⟩) rfl
      ⟨"B", some (.number 7)⟩ ⟨by simp, by simp⟩
    (a.isComplete ∧ b.isComplete) ∧ ∃ as bs,
      a.encode = .ok as ∧ b.encode = .ok bs ∧ compare as bs = a.compare b ∧ (as = bs → a = b) :=
  ⟨⟨rfl, rfl⟩, encode_sorts rfl rfl⟩

end Key
end EntityGraph
