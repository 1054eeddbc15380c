import ZkRuntime.RpcAuth.Helpers.Addresses
import ZkRuntime.RpcAuth.Helpers.HostPort
/-!
# Endpoints to dial and to listen on

`ParseTCPEndpoint` accepts a language that is said here without it
(`EndpointHost`), and returns the host as it was written. The check of the
listen address accepts that language and, beside it, only port 0, an empty
host and the unspecified addresses.
-/

namespace ZkRuntime

namespace RpcAuth

open NetIp

/-! ## What each checks, once the address is split -/

variable {lib : Library} {a h host port : Bytes}

/-- The checks of a host that is no address. -/
def Named (host : Bytes) : Prop :=
  host.length ≤ 253 ∧ (host.splitOn 0x2E).all validLabel = true ∧
    (host.splitOn 0x2E).any (fun label => label.any isLetter) = true ∧
    (host.splitOn 0x2E).all numericAddressLabel = false

theorem Split.bracket_iff (hs : Split a host port) : 0x5B ∈ a ↔ a.head? = some 0x5B := by
  cases hs with
  | plain hcolon hport hopen hclose hopen' hclose' =>
    constructor
    · intro hmem
      rw [List.mem_append, List.mem_cons] at hmem
      rcases hmem with hmem | hmem | hmem
      · exact absurd hmem hopen
      · exact absurd hmem (by decide)
      · exact absurd hmem hopen'
    · intro hhead
      exact absurd hhead (beq_eq_false_iff_ne.1 (head?_append_ne hopen))
  | bracketed => exact ⟨fun _ => rfl, fun _ => List.mem_cons_self⟩

theorem Split.close_iff (hs : Split a host port) : 0x5D ∈ a ↔ a.head? = some 0x5B := by
  refine Iff.trans ?_ hs.bracket_iff
  cases hs with
  | plain hcolon hport hopen hclose hopen' hclose' =>
    rw [List.mem_append, List.mem_append, List.mem_cons, List.mem_cons]
    simp [hopen, hclose, hopen', hclose']
  | bracketed => simp

theorem parseTCPEndpoint_iff (hs : Split a host port) :
    parseTCPEndpoint lib a = some h ↔ h = host ∧ host ≠ [] ∧ validPort port = true ∧
      ((∃ ip, lib.parseAddr host = some ip ∧ ip.zone = [] ∧ ip.isUnspecified = false ∧
          ¬ (ip.is4 = true ∧ a.head? = some 0x5B)) ∨
        (lib.parseAddr host = none ∧ a.head? ≠ some 0x5B ∧ Named host)) := by
  rw [parseTCPEndpoint, splitHostPort_of_split hs]
  dsimp only
  rw [Option.ite_none_left_eq_some, not_or, Bool.not_eq_false]
  cases hip : lib.parseAddr host with
  | some ip =>
    dsimp only
    rw [Option.ite_none_left_eq_some, not_or, not_or, not_not, Bool.not_eq_true, hs.bracket_iff, Option.some.injEq]
    constructor
    · rintro ⟨⟨hne, hport⟩, ⟨hzone, hunspec, h4⟩, rfl⟩
      exact ⟨rfl, hne, hport, .inl ⟨ip, rfl, hzone, hunspec, h4⟩⟩
    · rintro ⟨rfl, hne, hport, ⟨ip', heq, hzone, hunspec, h4⟩ | ⟨heq, -⟩⟩
      · cases heq
        exact ⟨⟨hne, hport⟩, ⟨hzone, hunspec, h4⟩, rfl⟩
      · cases heq
  | none =>
    dsimp only
    rw [Option.ite_none_left_eq_some, Option.ite_none_left_eq_some, Option.ite_none_left_eq_some, not_or, not_or,
      not_or, not_lt, hs.bracket_iff, hs.close_iff, Bool.not_eq_false, Bool.not_eq_false, Bool.not_eq_true,
      Option.some.injEq]
    constructor
    · rintro ⟨⟨hne, hport⟩, ⟨hlong, hhead, -⟩, hlabels, ⟨hletter, hnumeric⟩, rfl⟩
      exact ⟨rfl, hne, hport, .inr ⟨rfl, hhead, hlong, hlabels, hletter, hnumeric⟩⟩
    · rintro ⟨rfl, hne, hport, ⟨ip, heq, -⟩ | ⟨-, hhead, hlong, hlabels, hletter, hnumeric⟩⟩
      · cases heq
      · exact ⟨⟨hne, hport⟩, ⟨hlong, hhead, hhead⟩, hlabels, ⟨hletter, hnumeric⟩, rfl⟩

/-! ## Listening -/

/-- A port a listener may have: port 0 as well, and no leading zero in front
of another digit. -/
def ListenPort (port : Bytes) : Prop :=
  port ≠ [] ∧ port.length ≤ 5 ∧ ¬ (1 < port.length ∧ port.head? = some 0x30) ∧ port.all Bytes.isDigit = true ∧
    Bytes.decimalValue port ≤ 65535

theorem validPort_iff : validPort port = true ↔ ListenPort port ∧ port ≠ ascii "0" := by
  have hzero : ascii "0" = [0x30] := ascii_ofList ['0']
  have hvalue : Bytes.decimalValue [0x30] = 0 := rfl
  simp only [validPort, ListenPort, hzero, Bool.and_eq_true, Bool.not_eq_true', Bool.or_eq_false_iff,
    beq_eq_false_iff_ne, decide_eq_false_iff_not, not_lt, ne_eq]
  constructor
  · rintro ⟨⟨⟨⟨hne, hlen⟩, hhead⟩, hdigits⟩, hlow, hhigh⟩
    refine ⟨⟨hne, hlen, fun h => hhead h.2, hdigits, hhigh⟩, ?_⟩
    rintro rfl
    exact hhead rfl
  · rintro ⟨⟨hne, hlen, hhead, hdigits, hhigh⟩, hzero⟩
    -- a zero in front is the only digit
    have hhead' : port.head? ≠ some 0x30 := by
      intro h
      match port, h with
      | [_], h =>
        rw [List.head?_cons, Option.some.injEq] at h
        exact hzero (by rw [h])
      | _ :: _ :: _, h => exact hhead ⟨by simp, h⟩
    have hpos : 1 ≤ Bytes.decimalValue port := by
      rw [Nat.one_le_iff_ne_zero]
      intro h
      have hdec := Bytes.decimal_decimalValue hne (List.all_eq_true.1 hdigits) (fun h' => absurd h' hhead')
      rw [h] at hdec
      exact hzero hdec.symm
    exact ⟨⟨⟨⟨hne, hlen⟩, hhead'⟩, hdigits⟩, hpos, hhigh⟩

theorem ite_false_eq_true {p : Prop} [Decidable p] {b : Bool} :
    (if p then false else b) = true ↔ ¬ p ∧ b = true := by
  by_cases hp : p
  · rw [if_pos hp]
    exact ⟨fun h => absurd h Bool.false_ne_true, fun h => absurd hp h.1⟩
  · rw [if_neg hp]
    exact ⟨fun h => ⟨hp, h⟩, fun h => h.2⟩

/-- An address without brackets is split as it is, with whatever port. -/
theorem Split.plain_of (hs : Split a host port) (hhead : a.head? ≠ some 0x5B) {port' : Bytes}
    (hport : ∀ c ∈ port', Bytes.isDigit c = true) :
    Split (joinHostPort host port') host port' ∧ (joinHostPort host port').head? ≠ some 0x5B := by
  cases hs with
  | plain hcolon _ hopen hclose _ _ =>
    rw [joinHostPort, if_neg hcolon]
    refine ⟨.plain hcolon ?_ hopen hclose ?_ ?_, ?_⟩
    · exact fun h => absurd (hport _ h) (by decide)
    · exact fun h => absurd (hport _ h) (by decide)
    · exact fun h => absurd (hport _ h) (by decide)
    · exact beq_eq_false_iff_ne.1 (head?_append_ne hopen)
  | bracketed => exact absurd rfl hhead

theorem ascii_one : ascii "1" = [0x31] := ascii_ofList ['1']

/-- The dummy port hides nothing: a name passes just where it would with a
port of its own. -/
theorem parseTCPEndpoint_dummy (hs : Split a host port) (hhead : a.head? ≠ some 0x5B)
    (haddr : lib.parseAddr host = none) :
    (parseTCPEndpoint lib (joinHostPort host (ascii "1"))).isSome = true ↔ host ≠ [] ∧ Named host := by
  have hdigit : ∀ c ∈ ascii "1", Bytes.isDigit c = true := by
    rw [ascii_one]
    exact List.forall_mem_singleton.2 (by decide)
  have hvalid : validPort (ascii "1") = true := by
    rw [ascii_one]
    decide
  obtain ⟨hs', hhead'⟩ := hs.plain_of hhead hdigit
  rw [Option.isSome_iff_exists]
  constructor
  · rintro ⟨x, hx⟩
    obtain ⟨-, hne, -, ⟨ip, heq, -⟩ | ⟨-, -, hnamed⟩⟩ := (parseTCPEndpoint_iff hs').1 hx
    · rw [haddr] at heq
      cases heq
    · exact ⟨hne, hnamed⟩
  · rintro ⟨hne, hnamed⟩
    exact ⟨host, (parseTCPEndpoint_iff hs').2 ⟨rfl, hne, hvalid, .inr ⟨haddr, hhead', hnamed⟩⟩⟩

theorem validateCoordinatorListenAddress_iff (hs : Split a host port) :
    validateCoordinatorListenAddress lib a = true ↔ ListenPort port ∧
      ((host = [] ∧ a.head? ≠ some 0x5B) ∨ (host ≠ [] ∧
        ((∃ ip, lib.parseAddr host = some ip ∧ ip.zone = [] ∧ ¬ (ip.is4 = true ∧ a.head? = some 0x5B)) ∨
          (lib.parseAddr host = none ∧ a.head? ≠ some 0x5B ∧ Named host)))) := by
  have hport : ¬ (port.length = 0 ∨ 5 < port.length ∨ (1 < port.length ∧ port.head? = some 0x30)) ∧
      ¬ (port.all Bytes.isDigit = false ∨ 65535 < Bytes.decimalValue port) ↔ ListenPort port := by
    rw [not_or, not_or, not_or, not_lt, not_lt, Bool.not_eq_false, List.length_eq_zero_iff, ListenPort]
    constructor
    · rintro ⟨⟨hne, hlen, hhead⟩, hdigits, hhigh⟩
      exact ⟨hne, hlen, hhead, hdigits, hhigh⟩
    · rintro ⟨hne, hlen, hhead, hdigits, hhigh⟩
      exact ⟨⟨hne, hlen, hhead⟩, hdigits, hhigh⟩
  rw [validateCoordinatorListenAddress, splitHostPort_of_split hs]
  dsimp only
  rw [ite_false_eq_true, ite_false_eq_true, ← and_assoc, hport]
  refine and_congr_right fun _ => ?_
  by_cases hnil : host = []
  · rw [if_pos hnil, Bool.not_eq_true', beq_eq_false_iff_ne]
    exact ⟨fun h => .inl ⟨hnil, h⟩, fun h => h.elim (·.2) fun h => absurd hnil h.1⟩
  rw [if_neg hnil]
  cases hip : lib.parseAddr host with
  | some ip =>
    dsimp only
    rw [Bool.not_eq_true', Bool.or_eq_false_iff, bne_eq_false_iff_eq, ← Bool.not_eq_true, Bool.and_eq_true, beq_iff_eq]
    constructor
    · rintro ⟨hzone, h4⟩
      exact .inr ⟨hnil, .inl ⟨ip, rfl, hzone, h4⟩⟩
    · rintro (⟨heq, -⟩ | ⟨-, ⟨ip', heq, hzone, h4⟩ | ⟨heq, -⟩⟩)
      · exact absurd heq hnil
      · cases heq
        exact ⟨hzone, h4⟩
      · cases heq
  | none =>
    dsimp only
    rw [ite_false_eq_true]
    constructor
    · rintro ⟨hhead, hsome⟩
      exact .inr ⟨hnil, .inr ⟨rfl, hhead, ((parseTCPEndpoint_dummy hs hhead hip).1 hsome).2⟩⟩
    · rintro (⟨heq, -⟩ | ⟨-, ⟨ip, heq, -⟩ | ⟨-, hhead, hnamed⟩⟩)
      · exact absurd heq hnil
      · cases heq
      · exact ⟨hhead, (parseTCPEndpoint_dummy hs hhead hip).2 ⟨hnil, hnamed⟩⟩

/-- **Listening and dialling agree**: what can be dialled can be listened on,
and what can only be listened on has port 0, an empty host without brackets,
or an unspecified address. -/
theorem listen_dial_agree (lib : Library) (a : Bytes) :
    ((parseTCPEndpoint lib a).isSome = true → validateCoordinatorListenAddress lib a = true) ∧
      (validateCoordinatorListenAddress lib a = true → (parseTCPEndpoint lib a).isSome = true ∨
        ∃ host port, splitHostPort a = some (host, port) ∧
          (port = ascii "0" ∨ (host = [] ∧ a.head? ≠ some 0x5B) ∨
            ∃ ip, lib.parseAddr host = some ip ∧ ip.isUnspecified = true)) := by
  cases hsplit : splitHostPort a with
  | none =>
    rw [parseTCPEndpoint, validateCoordinatorListenAddress, hsplit]
    exact ⟨fun h => absurd h Bool.false_ne_true, fun h => absurd h Bool.false_ne_true⟩
  | some p =>
    obtain ⟨host, port⟩ := p
    have hs := split_of_splitHostPort hsplit
    constructor
    · intro hsome
      obtain ⟨h, hh⟩ := Option.isSome_iff_exists.1 hsome
      obtain ⟨-, hne, hport, haddr⟩ := (parseTCPEndpoint_iff hs).1 hh
      refine (validateCoordinatorListenAddress_iff hs).2 ⟨(validPort_iff.1 hport).1, .inr ⟨hne, ?_⟩⟩
      rcases haddr with ⟨ip, hip, hzone, -, h4⟩ | hname
      · exact .inl ⟨ip, hip, hzone, h4⟩
      · exact .inr hname
    · intro hlisten
      obtain ⟨hport, haddr⟩ := (validateCoordinatorListenAddress_iff hs).1 hlisten
      by_cases hzero : port = ascii "0"
      · exact .inr ⟨host, port, rfl, .inl hzero⟩
      have hvalid := validPort_iff.2 ⟨hport, hzero⟩
      rcases haddr with hempty | ⟨hne, ⟨ip, hip, hzone, h4⟩ | hname⟩
      · exact .inr ⟨host, port, rfl, .inr (.inl hempty)⟩
      · cases hunspec : ip.isUnspecified with
        | true => exact .inr ⟨host, port, rfl, .inr (.inr ⟨ip, hip, hunspec⟩)⟩
        | false =>
          left
          rw [(parseTCPEndpoint_iff hs).2 ⟨rfl, hne, hvalid, .inl ⟨ip, hip, hzone, hunspec, h4⟩⟩]
          rfl
      · left
        rw [(parseTCPEndpoint_iff hs).2 ⟨rfl, hne, hvalid, .inr hname⟩]
        rfl

/-! ## The language of endpoints -/

/-- **A label of a name**. -/
structure Label (l : Bytes) : Prop where
  length : 1 ≤ l.length ∧ l.length ≤ 63
  bytes : ∀ c ∈ l, isLetter c = true ∨ Bytes.isDigit c = true ∨ c = 0x2D
  ends : l.head? ≠ some 0x2D ∧ l.getLast? ≠ some 0x2D

/-- **A number as an address may have it**: in decimal, or in hexadecimal
behind `0x`. -/
inductive Numeric : Bytes → Prop
  | decimal {ds : Bytes} : ds ≠ [] → (∀ c ∈ ds, Bytes.isDigit c = true) → Numeric ds
  | hex {ds : Bytes} {x : UInt8} : x = 0x78 ∨ x = 0x58 → ds ≠ [] →
      (∀ c ∈ ds, Bytes.isDigit c = true ∨ isHexLetter c = true) → Numeric (0x30 :: x :: ds)

/-- **The host of an endpoint**: an IPv4 literal or one of IPv6 without a
zone, neither of them unspecified, or a name. -/
inductive EndpointHost : Bytes → Prop
  | ipv4 {a b c d : ℕ} : a < 256 ∧ b < 256 ∧ c < 256 ∧ d < 256 → ¬ (a = 0 ∧ b = 0 ∧ c = 0 ∧ d = 0) →
      EndpointHost (dotted a b c d)
  | ipv6 {h : Bytes} {ip : IpAddr} : parseAddr h = some ip → ip.is4 = false → ip.zone = [] →
      ip.unmap.isUnspecified = false → EndpointHost h
  | name {ls : List Bytes} : ls ≠ [] → (∀ l ∈ ls, Label l) → (∃ l ∈ ls, ∃ c ∈ l, isLetter c = true) →
      (∃ l ∈ ls, ¬ Numeric l) → ([0x2E].intercalate ls : Bytes).length ≤ 253 → EndpointHost ([0x2E].intercalate ls)

theorem validLabel_iff {l : Bytes} : validLabel l = true ↔ Label l := by
  simp only [validLabel, Bool.and_eq_true, Bool.not_eq_true', Bool.or_eq_false_iff, beq_eq_false_iff_ne,
    decide_eq_false_iff_not, not_lt, List.all_eq_true, Bool.or_eq_true, beq_iff_eq]
  constructor
  · rintro ⟨⟨⟨⟨hpos, hlen⟩, hhead⟩, hlast⟩, hbytes⟩
    refine ⟨⟨by omega, hlen⟩, fun c hc => ?_, hhead, hlast⟩
    rcases hbytes c hc with (h | h) | h
    · exact .inl h
    · exact .inr (.inl h)
    · exact .inr (.inr h)
  · rintro ⟨⟨hpos, hlen⟩, hbytes, hhead, hlast⟩
    refine ⟨⟨⟨⟨by omega, hlen⟩, hhead⟩, hlast⟩, fun c hc => ?_⟩
    rcases hbytes c hc with h | h | h
    · exact .inl (.inl h)
    · exact .inl (.inr h)
    · exact .inr h

theorem take_two {l : Bytes} {x : UInt8} (h : l.take 2 = [0x30, x]) : ∃ ds, l = 0x30 :: x :: ds := by
  refine ⟨l.drop 2, ?_⟩
  have hsplit := List.take_append_drop 2 l
  rw [h] at hsplit
  exact hsplit.symm

/-- The prefixes `0x` and `0X`. -/
theorem hex_prefix_iff {l : Bytes} : (l.take 2 == ascii "0x" || l.take 2 == ascii "0X") = true ↔
    ∃ x ds, (x = 0x78 ∨ x = 0x58) ∧ l = 0x30 :: x :: ds := by
  have hlower : ascii "0x" = [0x30, 0x78] := ascii_ofList ['0', 'x']
  have hupper : ascii "0X" = [0x30, 0x58] := ascii_ofList ['0', 'X']
  rw [hlower, hupper, Bool.or_eq_true, beq_iff_eq, beq_iff_eq]
  constructor
  · rintro (h | h)
    · obtain ⟨ds, hds⟩ := take_two h
      exact ⟨_, ds, .inl rfl, hds⟩
    · obtain ⟨ds, hds⟩ := take_two h
      exact ⟨_, ds, .inr rfl, hds⟩
  · rintro ⟨x, ds, rfl | rfl, rfl⟩
    · exact .inl rfl
    · exact .inr rfl

theorem numericAddressLabel_iff {l : Bytes} : numericAddressLabel l = true ↔ Numeric l := by
  rw [numericAddressLabel]
  by_cases hhex : (l.take 2 == ascii "0x" || l.take 2 == ascii "0X") = true
  · obtain ⟨x, ds, hx, rfl⟩ := hex_prefix_iff.1 hhex
    rw [hhex, if_pos rfl, show (0x30 :: x :: ds : Bytes).drop 2 = ds from rfl, Bool.and_eq_true, bne_iff_ne,
      List.all_eq_true]
    constructor
    · rintro ⟨hne, hall⟩
      refine .hex hx hne fun c hc => ?_
      have := hall c hc
      rwa [Bool.true_and, Bool.or_eq_true] at this
    · intro h
      cases h with
      | decimal _ hdigits =>
        -- `x` is no digit
        have hdigit := hdigits x (by simp)
        rcases hx with rfl | rfl <;> exact absurd hdigit (by decide)
      | hex _ hne hall =>
        refine ⟨hne, fun c hc => ?_⟩
        rw [Bool.true_and, Bool.or_eq_true]
        exact hall c hc
  · rw [Bool.not_eq_true] at hhex
    rw [hhex, if_neg Bool.false_ne_true, Bool.and_eq_true, bne_iff_ne, List.all_eq_true]
    constructor
    · rintro ⟨hne, hall⟩
      refine .decimal hne fun c hc => ?_
      have := hall c hc
      rwa [Bool.false_and, Bool.or_false] at this
    · intro h
      cases h with
      | decimal hne hdigits =>
        refine ⟨hne, fun c hc => ?_⟩
        rw [Bool.false_and, Bool.or_false]
        exact hdigits c hc
      | hex hx _ _ =>
        rw [hex_prefix_iff.2 ⟨_, _, hx, rfl⟩] at hhex
        cases hhex

/-- **The names** are what the checks let through. -/
theorem named_iff : Named host ↔ ∃ ls : List Bytes, ls ≠ [] ∧ host = [0x2E].intercalate ls ∧ (∀ l ∈ ls, Label l) ∧
    (∃ l ∈ ls, ∃ c ∈ l, isLetter c = true) ∧ (∃ l ∈ ls, ¬ Numeric l) ∧ host.length ≤ 253 := by
  have hchecks : ∀ ls : List Bytes, (ls.all validLabel = true ∧ ls.any (fun label => label.any isLetter) = true ∧
      ls.all numericAddressLabel = false) ↔ ((∀ l ∈ ls, Label l) ∧ (∃ l ∈ ls, ∃ c ∈ l, isLetter c = true) ∧
      ∃ l ∈ ls, ¬ Numeric l) := by
    intro ls
    simp only [List.all_eq_true, List.any_eq_true, List.all_eq_false, validLabel_iff, numericAddressLabel_iff]
  constructor
  · rintro ⟨hlen, hlabels⟩
    obtain ⟨hall, hletter, hnumeric⟩ := (hchecks _).1 hlabels
    exact ⟨_, List.splitOn_ne_nil _ _, (List.intercalate_splitOn 0x2E).symm, hall, hletter, hnumeric, hlen⟩
  · rintro ⟨ls, hne, rfl, hall, hletter, hnumeric, hlen⟩
    refine ⟨hlen, ?_⟩
    -- no label has a dot in it
    have hdot : ∀ l ∈ ls, (0x2E : UInt8) ∉ l := by
      intro l hl hmem
      rcases (hall l hl).bytes _ hmem with h | h | h <;> exact absurd h (by decide)
    rw [List.splitOn_intercalate 0x2E hdot hne]
    exact (hchecks ls).2 ⟨hall, hletter, hnumeric⟩

theorem Label.mem_name {ls : List Bytes} (hall : ∀ l ∈ ls, Label l) {c : UInt8} (hc : c ∈ [0x2E].intercalate ls) :
    c ≠ 0x3A ∧ c ≠ 0x5B ∧ c ≠ 0x5D := by
  have hbyte : isLetter c = true ∨ Bytes.isDigit c = true ∨ c = 0x2D ∨ c = 0x2E := by
    rcases mem_intercalate hc with rfl | ⟨l, hl, hcl⟩
    · exact .inr (.inr (.inr rfl))
    · rcases (hall l hl).bytes c hcl with h | h | h
      · exact .inl h
      · exact .inr (.inl h)
      · exact .inr (.inr (.inl h))
  refine ⟨?_, ?_, ?_⟩ <;>
  · rintro rfl
    revert hbyte
    decide

/-- A letter is no digit. -/
theorem isDigit_of_isLetter {c : UInt8} (h : isLetter c = true) : Bytes.isDigit c = false := by
  rw [isLetter, Bool.or_eq_true, Bool.and_eq_true, Bool.and_eq_true, decide_eq_true_eq, decide_eq_true_eq,
    decide_eq_true_eq, decide_eq_true_eq] at h
  rw [Bytes.isDigit, Bool.and_eq_false_iff, decide_eq_false_iff_not, decide_eq_false_iff_not]
  omega

/-- A valid port is a number in decimal. -/
theorem validPort_iff_decimal : validPort port = true ↔ ∃ n, 1 ≤ n ∧ n ≤ 65535 ∧ port = Bytes.decimal n := by
  have hzero : ascii "0" = Bytes.decimal 0 := ascii_ofList ['0']
  rw [validPort_iff, hzero]
  constructor
  · rintro ⟨⟨hne, hlen, hhead, hdigits, hhigh⟩, hpos⟩
    have hdec := Bytes.decimal_decimalValue hne (List.all_eq_true.1 hdigits) fun h => by
      have := List.length_pos_iff.2 hne
      have : ¬ 1 < port.length := fun hl => hhead ⟨hl, h⟩
      omega
    refine ⟨Bytes.decimalValue port, ?_, hhigh, hdec.symm⟩
    rw [Nat.one_le_iff_ne_zero]
    intro h
    rw [h] at hdec
    exact hpos hdec.symm
  · rintro ⟨n, hpos, hhigh, rfl⟩
    have hhead := Bytes.head?_decimal hpos
    refine ⟨⟨Bytes.decimal_ne_nil n, (Bytes.length_decimal_le (by omega)).2 (by omega), fun h => hhead h.2,
      List.all_eq_true.2 fun c hc => Bytes.isDigit_of_mem_decimal hc, ?_⟩, ?_⟩
    · rwa [Bytes.decimalValue_decimal]
    · intro h
      rw [h] at hhead
      exact hhead rfl

/-- No host of an endpoint has a bracket. -/
theorem EndpointHost.notMem (h : EndpointHost host) : (0x5B : UInt8) ∉ host ∧ (0x5D : UInt8) ∉ host := by
  cases h with
  | @ipv4 a b c d _ _ =>
    have hbyte : ∀ x ∈ dotted a b c d, x ≠ 0x5B ∧ x ≠ 0x5D := by
      intro x hx
      rcases mem_dotted hx with hd | rfl
      · exact (addrByte_of_isDigit hd).ne
      · exact ⟨by decide, by decide⟩
    exact ⟨fun h => (hbyte _ h).1 rfl, fun h => (hbyte _ h).2 rfl⟩
  | ipv6 hip h4 hzone _ =>
    have hbyte := (parseIPv6_inv (parseIPv6_of_not_is4 hip h4).1).2 hzone
    exact ⟨fun h => (hbyte _ h).ne.1 rfl, fun h => (hbyte _ h).ne.2 rfl⟩
  | name _ hall _ _ _ =>
    exact ⟨fun h => (Label.mem_name hall h).2.1 rfl, fun h => (Label.mem_name hall h).2.2 rfl⟩

theorem EndpointHost.ne_nil (h : EndpointHost host) : host ≠ [] := by
  cases h with
  | ipv4 _ _ =>
    rw [dotted, List.intercalate_cons_cons]
    simp
  | ipv6 hip h4 _ _ => exact List.ne_nil_of_mem (parseIPv6_of_not_is4 hip h4).2
  | @name ls _ hall hletter _ _ =>
    rintro hnil
    obtain ⟨l, hl, c, hc, -⟩ := hletter
    -- the one label an empty name could have is empty
    have hdots : ∀ m ∈ ls, (0x2E : UInt8) ∉ m := by
      intro m hm hdot
      rcases (hall m hm).bytes _ hdot with h | h | h <;> exact absurd h (by decide)
    have hsplit := List.splitOn_intercalate (0x2E : UInt8) hdots (List.ne_nil_of_mem hl)
    rw [hnil, List.splitOn_nil] at hsplit
    rw [← hsplit, List.mem_singleton] at hl
    rw [hl] at hc
    cases hc

/-- **The language of `ParseTCPEndpoint`.** It accepts an address just where
that is a host of the language joined with a port in decimal, and returns the
host as it was written. -/
theorem parseTCPEndpoint_eq_some (lib : Library) (a h : Bytes) :
    parseTCPEndpoint (library lib) a = some h ↔
      EndpointHost h ∧ ∃ n, 1 ≤ n ∧ n ≤ 65535 ∧ a = joinHostPort h (Bytes.decimal n) := by
  constructor
  · intro hparse
    cases hsplit : splitHostPort a with
    | none =>
      rw [parseTCPEndpoint, hsplit] at hparse
      cases hparse
    | some p =>
      obtain ⟨host, port⟩ := p
      have hs := split_of_splitHostPort hsplit
      obtain ⟨rfl, hne, hport, haddr⟩ := (parseTCPEndpoint_iff hs).1 hparse
      obtain ⟨n, hpos, hhigh, rfl⟩ := validPort_iff_decimal.1 hport
      suffices hhost : EndpointHost h ∧ (a.head? = some 0x5B → 0x3A ∈ h) by
        refine ⟨hhost.1, n, hpos, hhigh, ?_⟩
        cases hs with
        | plain hcolon => rw [joinHostPort, if_neg hcolon]
        | bracketed => rw [joinHostPort, if_pos (hhost.2 rfl)]
      rcases haddr with ⟨ip, hip, hzone, hunspec, h4⟩ | ⟨-, hhead, hnamed⟩
      · obtain ⟨ip, haddr, rfl⟩ := Option.map_eq_some_iff.1 hip
        cases his4 : ip.is4 with
        | true =>
          obtain ⟨a, b, c, d, hlt, hfields, rfl⟩ := parseIPv4_eq_some.1 (parseIPv4_of_is4 haddr his4).1
          refine ⟨.ipv4 hlt ?_, fun hhead => absurd ⟨his4, hhead⟩ h4⟩
          rintro ⟨rfl, rfl, rfl, rfl⟩
          rw [IpAddr.toAddr] at hunspec hzone
          dsimp only at hunspec hzone
          rw [unmap_of_is4 his4, IpAddr.isUnspecified, hfields, hzone] at hunspec
          cases hunspec
        | false =>
          exact ⟨.ipv6 haddr his4 hzone hunspec, fun _ => (parseIPv6_of_not_is4 haddr his4).2⟩
      · obtain ⟨ls, hls, rfl, hall, hletter, hnumeric, hlen⟩ := named_iff.1 hnamed
        exact ⟨.name hls hall hletter hnumeric hlen, fun h => absurd h hhead⟩
  · rintro ⟨hhost, n, hpos, hhigh, rfl⟩
    have hdigit : ∀ c ∈ Bytes.decimal n, Bytes.isDigit c = true := fun c hc => Bytes.isDigit_of_mem_decimal hc
    have hs := split_of_splitHostPort (splitHostPort_join hhost.notMem.1 hhost.notMem.2 hdigit)
    refine (parseTCPEndpoint_iff hs).2 ⟨rfl, hhost.ne_nil, validPort_iff_decimal.2 ⟨n, hpos, hhigh, rfl⟩, ?_⟩
    have hplain : 0x3A ∉ h → (joinHostPort h (Bytes.decimal n)).head? ≠ some 0x5B := by
      intro hcolon
      rw [joinHostPort, if_neg hcolon]
      exact beq_eq_false_iff_ne.1 (head?_append_ne hhost.notMem.1)
    cases hhost with
    | @ipv4 a b c d hlt hunspec =>
      have hcolon : (0x3A : UInt8) ∉ dotted a b c d := by
        intro h
        rcases mem_dotted h with h | h <;> exact absurd h (by decide)
      refine .inl ⟨_, congrArg (Option.map IpAddr.toAddr) (parseAddr_dotted hlt), rfl, ?_, fun h => hplain hcolon h.2⟩
      have hfields : [a, b, c, d].all (· == 0) = false := by
        rw [List.all_eq_false]
        by_contra hno
        push Not at hno
        simp only [List.mem_cons, List.not_mem_nil, or_false, forall_eq_or_imp, forall_eq, beq_iff_eq] at hno
        exact hunspec hno
      rw [IpAddr.toAddr]
      dsimp only
      rw [unmap_of_is4 rfl, IpAddr.isUnspecified, hfields, Bool.false_and]
    | ipv6 hip h4 hzone hunspec =>
      refine .inl ⟨_, congrArg (Option.map IpAddr.toAddr) hip, hzone, hunspec, fun h => ?_⟩
      have h4' : IpAddr.is4 _ = true := h.1
      rw [h4] at h4'
      cases h4'
    | @name ls hne hall hletter hnumeric hlen =>
      have hcolon : (0x3A : UInt8) ∉ [0x2E].intercalate ls := fun h => (Label.mem_name hall h).1 rfl
      obtain ⟨l, hl, c, hc, hisLetter⟩ := hletter
      have hmem : c ∈ [0x2E].intercalate ls := mem_intercalate_of_mem hl hc
      have hdot : c ≠ 0x2E := by
        rintro rfl
        exact absurd hisLetter (by decide)
      refine .inr ⟨?_, hplain hcolon, named_iff.2 ⟨ls, hne, rfl, hall, ⟨l, hl, c, hc, hisLetter⟩, hnumeric, hlen⟩⟩
      show Option.map _ _ = none
      rw [parseAddr_name hmem (isDigit_of_isLetter hisLetter) hdot hcolon, Option.map_none]

end RpcAuth

end ZkRuntime
