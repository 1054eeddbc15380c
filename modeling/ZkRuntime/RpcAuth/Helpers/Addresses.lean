import Mathlib.Data.List.TakeWhile
import ZkRuntime.Common.Decimal
import ZkRuntime.RpcAuth.Model.NetIp
/-!
# Helpers — IP literals

What a text has to be for `parseAddr` to read it: an IPv4 address is its
four numbers in decimal (`parseIPv4_eq_some`), and an address of either kind
has only digits, colons and dots in front of its zone.
-/

namespace ZkRuntime

namespace RpcAuth

/-! ## Splitting -/

theorem mem_intercalate {x c : UInt8} {ls : List Bytes} (h : c ∈ [x].intercalate ls) : c = x ∨ ∃ l ∈ ls, c ∈ l := by
  induction ls with
  | nil => cases h
  | cons l ls ih =>
    cases ls with
    | nil =>
      rw [List.intercalate_singleton] at h
      exact .inr ⟨l, by simp, h⟩
    | cons l' ls =>
      rw [List.intercalate_cons_cons, List.mem_append, List.mem_append, List.mem_singleton] at h
      rcases h with (h | h) | h
      · exact .inr ⟨l, by simp, h⟩
      · exact .inl h
      · rcases ih h with h | ⟨m, hm, hc⟩
        · exact .inl h
        · exact .inr ⟨m, List.mem_cons_of_mem _ hm, hc⟩

theorem mem_intercalate_of_mem {x c : UInt8} {ls : List Bytes} {l : Bytes} (hl : l ∈ ls) (hc : c ∈ l) :
    c ∈ [x].intercalate ls := by
  induction ls with
  | nil => cases hl
  | cons l' ls ih =>
    rw [List.mem_cons] at hl
    cases ls with
    | nil =>
      rcases hl with rfl | hl
      · rwa [List.intercalate_singleton]
      · cases hl
    | cons l'' ls =>
      rw [List.intercalate_cons_cons, List.mem_append, List.mem_append]
      rcases hl with rfl | hl
      · exact .inl (.inl hc)
      · exact .inr (ih hl)

theorem mem_splitOn {x c : UInt8} {s : Bytes} (h : c ∈ s) : c = x ∨ ∃ l ∈ s.splitOn x, c ∈ l := by
  exact mem_intercalate (List.intercalate_splitOn x ▸ h)

namespace NetIp

/-! ## IPv4 -/

theorem octet_eq_some {s : Bytes} {n : ℕ} : octet s = some n ↔ n < 256 ∧ s = Bytes.decimal n := by
  rw [octet]
  constructor
  · intro h
    split_ifs at h with hs
    obtain ⟨hne, hdigits, hzero, hlt⟩ := hs
    rw [Option.some.injEq] at h
    subst h
    exact ⟨hlt, (Bytes.decimal_decimalValue hne (List.all_eq_true.1 hdigits) hzero).symm⟩
  · rintro ⟨hlt, rfl⟩
    have hzero : (Bytes.decimal n).head? = some 0x30 → (Bytes.decimal n).length = 1 := by
      intro h
      cases n with
      | zero => rfl
      | succ n => exact absurd h (Bytes.head?_decimal (Nat.succ_pos n))
    rw [Bytes.decimalValue_decimal, if_pos ⟨Bytes.decimal_ne_nil n,
      List.all_eq_true.2 fun b hb => Bytes.isDigit_of_mem_decimal hb, hzero, hlt⟩]

/-- Four numbers in dotted decimal. -/
def dotted (a b c d : ℕ) : Bytes :=
  [0x2E].intercalate [Bytes.decimal a, Bytes.decimal b, Bytes.decimal c, Bytes.decimal d]

theorem splitOn_dotted (a b c d : ℕ) :
    (dotted a b c d).splitOn 0x2E = [Bytes.decimal a, Bytes.decimal b, Bytes.decimal c, Bytes.decimal d] := by
  have hdot : ∀ n, (0x2E : UInt8) ∉ Bytes.decimal n :=
    fun n h => absurd (Bytes.isDigit_of_mem_decimal h) (by decide)
  refine List.splitOn_intercalate 0x2E ?_ (List.cons_ne_nil _ _)
  intro l hl
  simp only [List.mem_cons, List.not_mem_nil, or_false] at hl
  rcases hl with rfl | rfl | rfl | rfl
  · exact hdot a
  · exact hdot b
  · exact hdot c
  · exact hdot d

/-- **An IPv4 literal is four numbers below 256 in dotted decimal.** -/
theorem parseIPv4_eq_some {s : Bytes} {fs : List ℕ} : parseIPv4 s = some fs ↔
    ∃ a b c d, (a < 256 ∧ b < 256 ∧ c < 256 ∧ d < 256) ∧ fs = [a, b, c, d] ∧ s = dotted a b c d := by
  constructor
  · intro h
    unfold parseIPv4 at h
    split at h
    · rename_i sa sb sc sd hsplit
      split at h
      · rename_i a b c d ha hb hc hd
        cases h
        obtain ⟨hla, rfl⟩ := octet_eq_some.1 ha
        obtain ⟨hlb, rfl⟩ := octet_eq_some.1 hb
        obtain ⟨hlc, rfl⟩ := octet_eq_some.1 hc
        obtain ⟨hld, rfl⟩ := octet_eq_some.1 hd
        refine ⟨a, b, c, d, ⟨hla, hlb, hlc, hld⟩, rfl, ?_⟩
        rw [dotted, ← hsplit, List.intercalate_splitOn]
      · cases h
    · cases h
  · rintro ⟨a, b, c, d, ⟨ha, hb, hc, hd⟩, rfl, rfl⟩
    rw [parseIPv4, splitOn_dotted]
    dsimp only
    rw [octet_eq_some.2 ⟨ha, rfl⟩, octet_eq_some.2 ⟨hb, rfl⟩, octet_eq_some.2 ⟨hc, rfl⟩, octet_eq_some.2 ⟨hd, rfl⟩]

theorem mem_dotted {a b c d : ℕ} {x : UInt8} (h : x ∈ dotted a b c d) : Bytes.isDigit x = true ∨ x = 0x2E := by
  rcases mem_intercalate h with rfl | ⟨l, hl, hx⟩
  · exact .inr rfl
  · simp only [List.mem_cons, List.not_mem_nil, or_false] at hl
    rcases hl with rfl | rfl | rfl | rfl <;> exact .inl (Bytes.isDigit_of_mem_decimal hx)

/-! ## IPv6 -/

/-- A character of an address: a hexadecimal digit, a colon or a dot. -/
def AddrByte (c : UInt8) : Prop := (Json.hexVal c).isSome = true ∨ c = 0x3A ∨ c = 0x2E

theorem AddrByte.ne {c : UInt8} (h : AddrByte c) : c ≠ 0x5B ∧ c ≠ 0x5D := by
  constructor <;>
  · rintro rfl
    revert h
    simp only [AddrByte]
    decide

theorem addrByte_of_isDigit {c : UInt8} (h : Bytes.isDigit c = true) : AddrByte c := by
  rw [Bytes.isDigit_iff] at h
  left
  rw [Json.hexVal, if_pos h]
  rfl

theorem addrByte_of_parseIPv4 {s : Bytes} {fs : List ℕ} (h : parseIPv4 s = some fs) : ∀ c ∈ s, AddrByte c := by
  obtain ⟨a, b, x, d, -, -, rfl⟩ := parseIPv4_eq_some.1 h
  intro c hc
  rcases mem_dotted hc with hc | rfl
  · exact addrByte_of_isDigit hc
  · exact .inr (.inr rfl)

theorem addrByte_of_group {g : Bytes} {u : ℕ} (h : group g = some u) : ∀ c ∈ g, AddrByte c := by
  rw [group] at h
  split_ifs at h with hg
  exact fun c hc => .inl (List.all_eq_true.1 hg.2.2 c hc)

theorem addrByte_of_groups {gs : List Bytes} {us : List ℕ} (h : groups gs = some us) :
    ∀ g ∈ gs, ∀ c ∈ g, AddrByte c := by
  induction gs generalizing us with
  | nil =>
    intro g hg
    cases hg
  | cons g gs ih =>
    rw [groups] at h
    split at h
    · rename_i u vs hu hvs
      exact List.forall_mem_cons.2 ⟨addrByte_of_group hu, ih hvs⟩
    · cases h

theorem addrByte_of_groupsEmbedded {gs : List Bytes} {us : List ℕ} (h : groupsEmbedded gs = some us) :
    ∀ g ∈ gs, ∀ c ∈ g, AddrByte c := by
  induction gs generalizing us with
  | nil =>
    intro g hg
    cases hg
  | cons g gs ih =>
    cases gs with
    | nil =>
      refine List.forall_mem_singleton.2 ?_
      rw [groupsEmbedded] at h
      by_cases hdot : (0x2E : UInt8) ∈ g
      · rw [if_pos hdot] at h
        split at h
        · rename_i hv4
          exact addrByte_of_parseIPv4 hv4
        · cases h
      · rw [if_neg hdot] at h
        obtain ⟨u, hu, -⟩ := Option.map_eq_some_iff.1 h
        exact addrByte_of_group hu
    | cons g' gs =>
      simp only [groupsEmbedded] at h
      split at h
      · rename_i u vs hu hvs
        exact List.forall_mem_cons.2 ⟨addrByte_of_group hu, ih hvs⟩
      · cases h

theorem addrByte_of_splitOn {s : Bytes} (h : ∀ g ∈ s.splitOn 0x3A, ∀ c ∈ g, AddrByte c) : ∀ c ∈ s, AddrByte c := by
  intro c hc
  rcases mem_splitOn (x := 0x3A) hc with rfl | ⟨g, hg, hcg⟩
  · exact .inr (.inl rfl)
  · exact h g hg c hcg

theorem cutEllipsis_eq {s l r : Bytes} (h : cutEllipsis s = some (l, r)) : s = l ++ 0x3A :: 0x3A :: r := by
  induction s using cutEllipsis.induct generalizing l r with
  | case1 a b s hab =>
    rw [cutEllipsis, if_pos hab] at h
    cases h
    rw [hab.1, hab.2]
    rfl
  | case2 a b s hab ih =>
    rw [cutEllipsis, if_neg hab] at h
    obtain ⟨⟨l', r'⟩, hcut, heq⟩ := Option.map_eq_some_iff.1 h
    cases heq
    rw [ih hcut]
    rfl
  | case3 s hs =>
    rw [cutEllipsis] at h
    · cases h
    · exact hs

/-- **The text of eight fields**: nothing but digits, colons and dots. -/
theorem addrByte_of_fields {s : Bytes} {us : List ℕ} (h : fields s = some us) :
    us.length = 8 ∧ ∀ c ∈ s, AddrByte c := by
  unfold fields at h
  split at h
  · rename_i l r hcut
    split at h
    · rename_i us' vs hus hvs
      split_ifs at h with hlt
      cases h
      constructor
      · rw [List.length_append, List.length_append, List.length_replicate]
        omega
      · rw [cutEllipsis_eq hcut]
        intro c hc
        rw [List.mem_append, List.mem_cons, List.mem_cons] at hc
        rcases hc with hc | rfl | rfl | hc
        · split_ifs at hus with hl
          · subst hl
            cases hc
          · exact addrByte_of_splitOn (addrByte_of_groups hus) c hc
        · exact .inr (.inl rfl)
        · exact .inr (.inl rfl)
        · split_ifs at hvs with hr
          · subst hr
            cases hc
          · exact addrByte_of_splitOn (addrByte_of_groupsEmbedded hvs) c hc
    · cases h
  · split at h
    · rename_i us' hus
      split_ifs at h with hlen
      cases h
      exact ⟨hlen, addrByte_of_splitOn (addrByte_of_groupsEmbedded hus)⟩
    · cases h

/-! ## Either -/

theorem parseIPv6_inv {s : Bytes} {ip : IpAddr} (h : parseIPv6 s = some ip) :
    ip.fields.length = 8 ∧ (ip.zone = [] → ∀ c ∈ s, AddrByte c) := by
  rw [parseIPv6] at h
  split_ifs at h with htail
  obtain ⟨us, hus, rfl⟩ := Option.map_eq_some_iff.1 h
  obtain ⟨hlen, hbytes⟩ := addrByte_of_fields hus
  refine ⟨hlen, fun hzone => ?_⟩
  -- without a zone there is nothing behind the fields
  have hnil : s.drop (s.takeWhile (· != 0x25)).length = [] := by
    rw [List.drop_eq_nil_iff, List.length_drop] at hzone
    rw [List.length_drop] at htail
    rw [List.drop_eq_nil_iff]
    omega
  have hall : s.takeWhile (· != 0x25) = s := by
    have hsplit := List.takeWhile_append_dropWhile (p := (· != (0x25 : UInt8))) (l := s)
    refine (List.takeWhile_prefix _).eq_of_length ?_
    rw [List.drop_eq_nil_iff] at hnil
    exact le_antisymm (List.takeWhile_prefix _).length_le hnil
  rwa [hall] at hbytes

/-- **What is read as IPv4** is a literal of it. -/
theorem parseIPv4_of_is4 {s : Bytes} {ip : IpAddr} (h : parseAddr s = some ip) (h4 : ip.is4 = true) :
    parseIPv4 s = some ip.fields ∧ ip.zone = [] := by
  rw [parseAddr] at h
  split at h
  · split_ifs at h
    · obtain ⟨fs, hfs, rfl⟩ := Option.map_eq_some_iff.1 h
      exact ⟨hfs, rfl⟩
    · obtain ⟨hlen, -⟩ := parseIPv6_inv h
      rw [IpAddr.is4, hlen] at h4
      cases h4
  · cases h

/-- What is not IPv6 has nothing mapped into it. -/
theorem unmap_of_is4 {ip : IpAddr} (h4 : ip.is4 = true) : ip.unmap = ip := by
  rw [IpAddr.is4, beq_iff_eq] at h4
  rw [IpAddr.unmap]
  split
  · rename_i u v hfields
    rw [hfields] at h4
    cases h4
  · rfl

/-- **What is read as IPv6** has a colon. -/
theorem parseIPv6_of_not_is4 {s : Bytes} {ip : IpAddr} (h : parseAddr s = some ip) (h4 : ip.is4 = false) :
    parseIPv6 s = some ip ∧ 0x3A ∈ s := by
  rw [parseAddr] at h
  split at h
  · rename_i c hc
    split_ifs at h with hdot hcolon
    · obtain ⟨fs, hfs, rfl⟩ := Option.map_eq_some_iff.1 h
      obtain ⟨a, b, x, d, -, rfl, -⟩ := parseIPv4_eq_some.1 hfs
      cases h4
    · subst hcolon
      exact ⟨h, List.mem_of_find?_eq_some hc⟩
  · cases h

theorem parseAddr_dotted {a b c d : ℕ} (h : a < 256 ∧ b < 256 ∧ c < 256 ∧ d < 256) :
    parseAddr (dotted a b c d) = some ⟨[a, b, c, d], []⟩ := by
  have hsome : ((dotted a b c d).find? fun x => x == 0x2E || x == 0x3A || x == 0x25) = some 0x2E := by
    cases hfind : (dotted a b c d).find? fun x => x == 0x2E || x == 0x3A || x == 0x25 with
    | none =>
      rw [List.find?_eq_none] at hfind
      have hdot : (0x2E : UInt8) ∈ dotted a b c d := by
        rw [dotted, List.intercalate_cons_cons]
        simp
      exact absurd rfl (hfind _ hdot)
    | some x =>
      have hx := List.find?_some hfind
      rcases mem_dotted (List.mem_of_find?_eq_some hfind) with hdigit | rfl
      · rw [Bool.or_eq_true, Bool.or_eq_true, beq_iff_eq, beq_iff_eq, beq_iff_eq] at hx
        rcases hx with (rfl | rfl) | rfl <;> exact absurd hdigit (by decide)
      · rfl
  rw [parseAddr, hsome]
  dsimp only
  rw [if_pos rfl, parseIPv4_eq_some.2 ⟨a, b, c, d, h, rfl, rfl⟩, Option.map_some]

/-- **A name is no address**: it has a letter, and no colon. -/
theorem parseAddr_name {s : Bytes} {c : UInt8} (hc : c ∈ s) (hdigit : Bytes.isDigit c = false) (hdot : c ≠ 0x2E)
    (hcolon : (0x3A : UInt8) ∉ s) : parseAddr s = none := by
  cases h : parseAddr s with
  | none => rfl
  | some ip =>
    cases h4 : ip.is4 with
    | false => exact absurd (parseIPv6_of_not_is4 h h4).2 hcolon
    | true =>
      obtain ⟨a, b, x, d, -, -, rfl⟩ := parseIPv4_eq_some.1 (parseIPv4_of_is4 h h4).1
      rcases mem_dotted hc with hd | hd
      · rw [hdigit] at hd
        cases hd
      · exact absurd hd hdot

end NetIp

end RpcAuth

end ZkRuntime
