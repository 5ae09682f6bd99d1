import InterSpec.Tools.Registered

/-!
# Policies of types only

A policy that only declares types is accepted by both generators, however many
types there are, when their names are good: no name, no hash and no identifier
is there twice.

* `hashType_injective`: the hash separates short ASCII names of one length.
* `typeNames`: as many good names as are asked for, up to `16 ^ 8`.
* `generateBoundary_typesPolicy`, `generateWasmBoundary_typesPolicy`: good names are
  accepted and the headers compile.
-/

namespace InterSpec.Tools

open Fallible InterSpec.Runtime

/-! ### Hashes of ASCII names -/

theorem utf8EncodeChar_of_lt {c : Char} (hc : c.toNat < 128) :
    String.utf8EncodeChar c = [c.val.toUInt8] := by
  refine String.utf8EncodeChar_eq_singleton (Char.utf8Size_eq_one_iff.mpr ?_)
  rw [UInt32.le_iff_toNat_le]
  show c.toNat ≤ 127
  omega

/-- The hash of an ASCII name, without wrapping. -/
def asciiHash (value : Nat) (name : Str) : Nat :=
  name.foldl (fun value c => 129 * value + c.toNat) value

theorem toNat_hash_foldl {name : Str} : ∀ {value : UInt64}, (∀ c ∈ name, c.toNat < 128) →
    (value.toNat + 1) * 129 ^ name.length ≤ 2 ^ 64 →
      ((name.flatMap String.utf8EncodeChar).foldl
        (fun value byte => 129 * value + byte.toUInt64) value).toNat =
          asciiHash value.toNat name := by
  induction name with
  | nil => intro value _ _; rfl
  | cons c name ih =>
    intro value hascii hbound
    rw [List.forall_mem_cons] at hascii
    rw [List.length_cons, pow_succ] at hbound
    have hpow : 1 ≤ 129 ^ name.length := Nat.one_le_pow _ _ (by decide)
    have hsmall : (value.toNat + 1) * 129 ≤ 2 ^ 64 := by
      calc (value.toNat + 1) * 129 ≤ (value.toNat + 1) * (129 ^ name.length * 129) :=
            Nat.mul_le_mul_left _ (by omega)
        _ ≤ 2 ^ 64 := hbound
    have hbyte : (c.val.toUInt8.toUInt64).toNat = c.toNat := by
      rw [UInt8.toNat_toUInt64, UInt32.toNat_toUInt8]
      exact Nat.mod_eq_of_lt (by have := hascii.1; show c.toNat < 256; omega)
    have hstep : (129 * value + c.val.toUInt8.toUInt64).toNat = 129 * value.toNat + c.toNat := by
      have h129 : ((129 : UInt64) * value).toNat = 129 * value.toNat := by
        rw [UInt64.toNat_mul]
        exact Nat.mod_eq_of_lt (by show 129 * value.toNat < 2 ^ 64; omega)
      rw [Word.toNat_add_of_lt (by rw [h129, hbyte]; omega), h129, hbyte]
    rw [List.flatMap_cons, utf8EncodeChar_of_lt hascii.1, List.singleton_append, List.foldl_cons,
      ih hascii.2 ?_, hstep]
    · rfl
    · rw [hstep]
      calc (129 * value.toNat + c.toNat + 1) * 129 ^ name.length
          ≤ ((value.toNat + 1) * 129) * 129 ^ name.length :=
            Nat.mul_le_mul_right _ (by have := hascii.1; omega)
        _ = (value.toNat + 1) * (129 ^ name.length * 129) := by
            rw [Nat.mul_assoc, Nat.mul_comm 129]
        _ ≤ 2 ^ 64 := hbound

theorem asciiHash_injective {x : Str} : ∀ {y : Str} {v w : Nat}, x.length = y.length →
    (∀ c ∈ x, c.toNat < 128) → (∀ c ∈ y, c.toNat < 128) → asciiHash v x = asciiHash w y →
      v = w ∧ x = y := by
  induction x with
  | nil =>
    intro y v w hlen _ _ h
    obtain rfl : y = [] := List.length_eq_zero_iff.mp hlen.symm
    exact ⟨h, rfl⟩
  | cons c x ih =>
    intro y v w hlen hx hy h
    cases y with
    | nil => cases hlen
    | cons d y =>
      rw [List.forall_mem_cons] at hx hy
      obtain ⟨hval, rfl⟩ := ih (Nat.succ.inj hlen) hx.2 hy.2 h
      have hval : 129 * v + c.toNat = 129 * w + d.toNat := hval
      have hc := hx.1
      have hd := hy.1
      have hchar : c.toNat = d.toNat := by omega
      rw [Char.toNat_inj.mp hchar]
      exact ⟨by omega, rfl⟩

/-- **Two ASCII names of one length, up to 9, have different hashes.** -/
theorem hashType_injective {x y : Str} (hlen : x.length = y.length) (hmax : x.length ≤ 9)
    (hx : ∀ c ∈ x, c.toNat < 128) (hy : ∀ c ∈ y, c.toNat < 128) (h : hashType x = hashType y) :
    x = y := by
  have hbound : ∀ name : Str, name.length ≤ 9 →
      ((0 : UInt64).toNat + 1) * 129 ^ name.length ≤ 2 ^ 64 := by
    intro name hname
    calc ((0 : UInt64).toNat + 1) * 129 ^ name.length = 129 ^ name.length := Nat.one_mul _
      _ ≤ 129 ^ 9 := Nat.pow_le_pow_right (by decide) hname
      _ ≤ 2 ^ 64 := by decide
  have hnat := congrArg UInt64.toNat h
  rw [hashType, hashType, toNat_hash_foldl hx (hbound x hmax),
    toNat_hash_foldl hy (hbound y (by omega))] at hnat
  exact (asciiHash_injective hlen hx hy hnat).2

/-! ### Names -/

/-- `n` base-16 digits of `k`, the lowest first, as the letters from A to P. -/
def letters : Nat → Nat → Str
  | 0, _ => []
  | n + 1, k => Char.ofNat (65 + k % 16) :: letters n (k / 16)

def typeName (k : Nat) : Str := 'T' :: letters 8 k

def typeNames (n : Nat) : List Str := (List.range n).map typeName

theorem length_letters (n : Nat) : ∀ k, (letters n k).length = n := by
  induction n with
  | zero => intro k; rfl
  | succ n ih => intro k; rw [letters, List.length_cons, ih]

theorem letter_ok : ∀ d < 16, (Char.ofNat (65 + d)).toNat = 65 + d ∧
    (Char.ofNat (65 + d)).isAlphanum = true := by decide

theorem letters_ok (n : Nat) : ∀ k, ∀ c ∈ letters n k, c.toNat < 128 ∧ c.isAlphanum = true := by
  induction n with
  | zero => exact fun k c hc => nomatch hc
  | succ n ih =>
    intro k c hc
    rcases List.mem_cons.mp hc with rfl | hc
    · obtain ⟨hval, halpha⟩ := letter_ok (k % 16) (Nat.mod_lt k (by decide))
      exact ⟨by omega, halpha⟩
    · exact ih (k / 16) c hc

theorem letters_injective {n : Nat} : ∀ {k j : Nat}, k < 16 ^ n → j < 16 ^ n →
    letters n k = letters n j → k = j := by
  induction n with
  | zero => intro k j hk hj _; omega
  | succ n ih =>
    intro k j hk hj h
    rw [pow_succ] at hk hj
    obtain ⟨hhead, htail⟩ := List.cons.inj h
    have hdiv : k / 16 = j / 16 := ih (by omega) (by omega) htail
    have hnat := congrArg Char.toNat hhead
    rw [(letter_ok (k % 16) (Nat.mod_lt k (by decide))).1,
      (letter_ok (j % 16) (Nat.mod_lt j (by decide))).1] at hnat
    omega

theorem typeName_ascii (k : Nat) : ∀ c ∈ typeName k, c.toNat < 128 := by
  rw [typeName, List.forall_mem_cons]
  exact ⟨by decide, fun c hc => (letters_ok 8 k c hc).1⟩

theorem typeName_injective {k j : Nat} (hk : k < 16 ^ 8) (hj : j < 16 ^ 8)
    (h : typeName k = typeName j) : k = j :=
  letters_injective hk hj (List.cons.inj h).2

theorem cpp_typeName (k : Nat) : cpp (typeName k) = typeName k :=
  cpp_eq_self (by decide) (by decide) (fun c hc => (letters_ok 8 k c hc).2)

/-! ### Good names -/

structure GoodNames (types : List Str) : Prop where
  nodup : types.Nodup
  hashes : (types.map hashType).Nodup
  idents : (types.map cpp).Nodup

theorem goodNames_typeNames {n : Nat} (hn : n ≤ 16 ^ 8) : GoodNames (typeNames n) := by
  have hinj : ∀ k ∈ List.range n, ∀ j ∈ List.range n, typeName k = typeName j → k = j := by
    intro k hk j hj
    rw [List.mem_range] at hk hj
    exact typeName_injective (by omega) (by omega)
  refine ⟨List.Nodup.map_on hinj List.nodup_range, ?_, ?_⟩
  · rw [typeNames, List.map_map]
    refine List.Nodup.map_on (fun k hk j hj h => hinj k hk j hj ?_) List.nodup_range
    have hlen : ∀ i, (typeName i).length = 9 := fun i => by
      rw [typeName, List.length_cons, length_letters]
    exact hashType_injective (by rw [hlen, hlen]) (hlen k).le (typeName_ascii k)
      (typeName_ascii j) h
  · rw [typeNames, List.map_map]
    refine List.Nodup.map_on (fun k hk j hj h => hinj k hk j hj ?_) List.nodup_range
    rwa [Function.comp_apply, Function.comp_apply, cpp_typeName, cpp_typeName] at h

theorem length_typeNames (n : Nat) : (typeNames n).length = n := by
  rw [typeNames, List.length_map, List.length_range]

theorem keys_typeIds {types : List Str} (h : types.Nodup) : (typeIds types).keys = types := by
  induction types using List.reverseRecOn with
  | nil => rfl
  | append_singleton types x ih =>
    rw [List.nodup_append] at h
    have hx : x ∉ types := fun hx => h.2.2 x hx x (List.mem_singleton_self x) rfl
    rw [typeIds_concat, Dict.keys_set, if_neg (fun hk => hx (mem_typeIds_keys.mp hk)), ih h.1]

/-! ### Acceptance -/

def typesPolicy (types : List Str) : Policy := ⟨types, [], []⟩

def noBoundary : Boundary := ⟨[], []⟩

theorem distinctIdents_of_good {types : List Str} (h : GoodNames types) :
    DistinctIdents (typeConstants (typeIds types)) [] := by
  refine ⟨?_, List.nodup_nil⟩
  have hidents := h.idents
  rw [← keys_typeIds h.nodup, Dict.keys, List.map_map] at hidents
  rw [typeConstants, List.map_map]
  exact hidents

theorem checkHashes_of_good {types : List Str} (h : GoodNames types) :
    checkHashes .empty (typeIds types).keys = .ok () :=
  checkHashes_eq_ok.mpr ⟨by rw [keys_typeIds h.nodup]; exact h.hashes,
    fun _ _ => Dict.get?_empty _⟩

theorem generateWasmBoundary_typesPolicy (isWord : Char → Bool) {types : List Str}
    (h : GoodNames types) (source namespaceName : Str) (siteIdBase : Int) :
    ∃ out q, generateWasmBoundary isWord (typesPolicy types) source namespaceName noBoundary
      siteIdBase = .ok out ∧ out.tHeader.compile = some q := by
  have hheader : generateWasmTHeader (typesPolicy types) [] 0 namespaceName siteIdBase =
      .ok ⟨namespaceName, typeConstants (typeIds types), siteIdBase, 0, 0, [], []⟩ :=
    bind_eq_ok.mpr ⟨(), checkHashes_of_good h, rfl⟩
  refine ⟨_, ⟨(typeConstants (typeIds types)).map compileType, [], []⟩,
    bind_eq_ok.mpr ⟨types, rfl, bind_eq_ok.mpr ⟨(), rfl, bind_eq_ok.mpr ⟨(), rfl,
      bind_eq_ok.mpr ⟨([], 0), rfl, bind_eq_ok.mpr ⟨source, rfl,
        bind_eq_ok.mpr ⟨_, hheader, rfl⟩⟩⟩⟩⟩⟩, ?_⟩
  rw [WasmTHeader.compile, guard, if_pos (distinctIdents_of_good h)]
  rfl

theorem generateBoundary_typesPolicy (isWord : Char → Bool) {types : List Str}
    (h : GoodNames types) (source namespaceName : Str) :
    ∃ out p, generateBoundary isWord (typesPolicy types) source namespaceName noBoundary =
      .ok out ∧ out.2.2.compile = some p := by
  have hlen : (typeIds types).entries.length = types.length := by
    rw [← List.length_map, show (typeIds types).entries.map Prod.fst = types from
      keys_typeIds h.nodup]
  have hgen : generate isWord (typesPolicy types) source = .ok (source,
      ⟨typeMacros (typeIds types), []⟩,
      ⟨defaultNamespace, typeConstants (typeIds types), [], [], [], []⟩) :=
    bind_eq_ok.mpr ⟨(), ensure_eq_ok.mpr hlen,
      bind_eq_ok.mpr ⟨(), checkHashes_of_good h, rfl⟩⟩
  refine ⟨_, ⟨(typeConstants (typeIds types)).map compileType, [], [], []⟩,
    bind_eq_ok.mpr ⟨(typesPolicy types, []), rfl, bind_eq_ok.mpr ⟨_, hgen, rfl⟩⟩, ?_⟩
  rw [THeader.compile, guard, if_pos (distinctIdents_of_good h)]
  rfl

theorem allTypes_typesPolicy (types : List Str) :
    allTypes (typesPolicy types) noBoundary = types := rfl

end InterSpec.Tools
