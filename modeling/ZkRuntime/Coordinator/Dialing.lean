import ZkRuntime.Coordinator.Binding
import ZkRuntime.RpcAuth.RoundTrip
/-!
# The identity a dispatch expects

A worker is in the registry under the identity it was authenticated by, so
the identity is valid and `WorkerCredentials` reads it back from the ID
alone: the worker a dispatch selects is always one it can expect.
-/

namespace ZkRuntime

namespace RpcAuth

variable {lib : Library} {address host : Bytes}

theorem host_ne_nil (h : parseTCPEndpoint lib address = some host) : host ≠ [] := by
  unfold parseTCPEndpoint at h
  split at h
  · cases h
  split at h
  · cases h
  rename_i hbad
  rw [not_or] at hbad
  split at h
  · split at h <;> cases h
    exact hbad.1
  · split at h
    · cases h
    dsimp only at h
    split at h
    · cases h
    split at h <;> cases h
    exact hbad.1

/-- The URI `WorkerCredentials` forms is that of the worker's principal. -/
theorem uri_worker (id : Bytes) :
    ascii "spiffe://distributedzk.local/worker/" ++ lib.pathEscape id = (⟨.worker, id⟩ : Principal).uri lib := by
  have htext : ascii "spiffe://distributedzk.local/worker/" =
      ascii "spiffe://distributedzk.local/" ++ Role.worker.text ++ ascii "/" := by decide +kernel
  rw [htext, Principal.uri]

/-- **The expected identity is formed** wherever it can be read back. -/
theorem workerCredentials_eq {m : Material} {id : Bytes} (hm : Material.valid (some m) = true)
    (hrole : m.principal.role = .coordinator) (hhost : parseTCPEndpoint lib address = some host)
    (hid : parsePrincipal lib ((⟨.worker, id⟩ : Principal).uri lib) = some ⟨.worker, id⟩) :
    workerCredentials lib (some m) id address = some ⟨host, ⟨.worker, id⟩⟩ := by
  obtain ⟨hvalid, -⟩ := of_parsePrincipal hid
  have hlocal : ¬ (Material.valid (some m) = false ∨ (some m).map (·.principal.role) ≠ some .coordinator) := by
    rw [not_or, Bool.not_eq_false, not_not]
    exact ⟨hm, by rw [Option.map_some, hrole]⟩
  have hclient : ¬ (Material.valid (some m) = false ∨ host = [] ∨
      (⟨.worker, id⟩ : Principal).valid = false ∨ (⟨.worker, id⟩ : Principal).role = .client) := by
    rw [not_or, not_or, not_or, Bool.not_eq_false, Bool.not_eq_false]
    exact ⟨hm, host_ne_nil hhost, hvalid, by simp⟩
  rw [workerCredentials, if_neg hlocal, hhost]
  dsimp only
  rw [uri_worker, hid]
  dsimp only
  rw [newClientTLS, if_neg hclient]

end RpcAuth

namespace Coordinator

open RpcAuth

/-- **Principals and their URIs are the same thing**, and every registered
worker is one a dispatch can expect. -/
theorem principal_identity_round_trip (ipLiteral : Bytes → Option Bytes)
    (unmarshalNames : Bytes → Option (List RawValue × Bytes)) (parseAddr : Bytes → Option Addr)
    (policy : Option Policy) (isPrint : ℕ → Bool) :
    let lib := netUrl ipLiteral unmarshalNames parseAddr
    (∀ p : Principal, p.valid = true → parsePrincipal lib (p.uri lib) = some p) ∧
    (∀ (s : Bytes) (p : Principal), parsePrincipal lib s = some p → p.valid = true ∧ p.uri lib = s) ∧
    (∀ p q : Principal, p.valid = true → q.valid = true → p.uri lib = q.uri lib → p = q) ∧
    ∀ (r : ((⟨lib, policy⟩ : Transport).secured isPrint).Run) (n : ℕ) (id : Bytes) (w : WorkerInfo)
      (m : Material), (r.state n).registry.lookup id = some w → Material.valid (some m) = true →
      m.principal.role = .coordinator →
      ∃ host, parseTCPEndpoint lib w.address = some host ∧
        workerCredentials lib (some m) id w.address = some ⟨host, ⟨.worker, id⟩⟩ := by
  intro lib
  refine ⟨fun p hp => parsePrincipal_uri _ _ _ hp, fun s p h => of_parsePrincipal h,
    fun p q hp hq h => uri_inj _ _ _ hp hq h, fun r n id w m hw hm hrole => ?_⟩
  obtain ⟨k, l, hlast⟩ := exists_lastWritten r n hw
  obtain ⟨c, -, hreg⟩ := hlast.registered
  obtain ⟨host, leaf, hhost, -⟩ := hreg.covered
  have hvalid : (⟨.worker, id⟩ : Principal).valid = true := by
    have hrec := hreg.by_worker.recognized
    unfold recognizes at hrec
    split at hrec
    · cases hrec
    · rw [Bool.and_eq_true] at hrec
      exact hrec.1
  exact ⟨host, hhost, workerCredentials_eq hm hrole hhost (parsePrincipal_uri _ _ _ hvalid)⟩

end Coordinator

end ZkRuntime
