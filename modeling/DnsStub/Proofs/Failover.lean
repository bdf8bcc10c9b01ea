import Mathlib
import DnsStub.Resolve.Lookup
/-!
# Failover across servers

A lookup is a computation on a session: it logs every exchange, waits on the clock and the
token, and offers responses to the cache. Here the search it makes is described as a function
of the scripted replies alone, rule by rule:

* the servers are asked in order, each over TCP at first under `tcpOnly` and over UDP otherwise;
* a server gets up to retries + 1 attempts of one exchange each; a truncated response over UDP
  in fallback mode is asked for again over TCP at once, within the attempt, and the server is
  asked over TCP from then on;
* a refused connection is an I/O error, a reply that never comes a timeout, and bytes that do
  not parse a parse error;
* the first successful response is the answer; an error response is kept, and the next server
  is asked only if the options say so; at the end the kept error response is the outcome, as an
  error or an answer as the options say, and without one the lookup fails with the number of
  attempts and the last server's error.

Main statement: `run_eq_failover`. With a token that nothing cancels, a cache that does not
hold the question, and replies that never come only under a finite timeout, a lookup makes
exactly the exchanges of the description, in order, and ends with its outcome.
-/
namespace DnsStub
namespace Failover

/-- How a reply reads. -/
def outcome (env : LookupEnv) (request : Request) : Reply → Except ResolveError Response
  | .fail => .error (.io .refused)
  | .hang => .error .timeout
  | .bytes bs => (Response.parse bs.toByteArray env.factory).mapError .parse
  | .template t =>
    match t.build request.id request.question with
    | .ok bs => (Response.parse bs.toByteArray env.factory).mapError .parse
    | .error e => .error (.parse e)

/-- What one attempt or one server's attempts did: the exchanges in order, the result, and the
replies left. -/
structure Visit where
  calls : List Exchange
  result : Except ResolveError Response
  /-- The protocol the server is asked over from then on. -/
  protocol : Protocol
  /-- The attempts made. -/
  attempts : Nat
  script : Script

/-- One attempt at a server over a protocol. -/
def attemptOnce (env : LookupEnv) (request : Request) (data : List UInt8) (server : NameServer)
    (p : Protocol) (sc : Script) : Visit :=
  let (reply, sc) := sc.pop server.addr
  match outcome env request reply with
  | .ok r =>
    if r.isTruncated ∧ p = .udp ∧ env.options.transport = .udpWithTcpFallback then
      ⟨[⟨server,p,data⟩,⟨server,.tcp,data⟩],outcome env request (sc.pop server.addr).1,.tcp,1,
        (sc.pop server.addr).2⟩
    else ⟨[⟨server,p,data⟩],.ok r,p,1,sc⟩
  | .error e => ⟨[⟨server,p,data⟩],.error e,p,1,sc⟩

/-- The attempts at a server, `k` of them left; `last` is the error of the one before. -/
def visit (env : LookupEnv) (request : Request) (data : List UInt8) (server : NameServer) :
    Nat → Protocol → ResolveError → Script → Visit
  | 0, p, last, sc => ⟨[],.error last,p,0,sc⟩
  | k + 1, p, _, sc =>
    let a := attemptOnce env request data server p sc
    match a.result with
    | .ok _ => a
    | .error e =>
      let v := visit env request data server k a.protocol e a.script
      ⟨a.calls ++ v.calls,v.result,v.protocol,v.attempts + 1,v.script⟩

/-- The outcome of a search that ends on an error response. -/
def settle (env : LookupEnv) (a : Answer) : Except ResolveError Answer :=
  if env.options.throwOnError then .error (.errorResponse a.responseCode a) else .ok a

/-- The servers left, with the attempts made so far, the last server error and the last error
response kept: the exchanges made and the outcome. -/
def search (env : LookupEnv) (request : Request) (data : List UInt8) :
    List NameServer → Nat → Option ResolveError → Option Answer → Script →
    List Exchange × Except ResolveError Answer
  | [], n, last, kept, _ =>
    ([],match kept with
      | some a => settle env a
      | none => .error (.connectivity n last))
  | server :: rest, n, last, kept, sc =>
    let first := if env.options.transport = .tcpOnly then Protocol.tcp else .udp
    let v := visit env request data server (env.options.retries + 1) first .timeout sc
    match v.result with
    | .ok r =>
      let a := Answer.ofServer r server
      if r.responseCode.isSuccess then (v.calls,.ok a)
      else if env.options.continueOnError then
        let s := search env request data rest (n + v.attempts) last (some a) v.script
        (v.calls ++ s.1,s.2)
      else (v.calls,settle env a)
    | .error e =>
      let s := search env request data rest (n + v.attempts) (some e) kept v.script
      (v.calls ++ s.1,s.2)

/-- A lookup of a request against scripted servers: the exchanges and the outcome. -/
def lookup (env : LookupEnv) (request : Request) (sc : Script) :
    List Exchange × Except ResolveError Answer :=
  match request.encode with
  | .error e => ([],.error (.parse e))
  | .ok data => search env request data env.servers 0 none none sc

end Failover

namespace Script

variable {s : Script} {addr : SocketAddress}

theorem exists_of_mem_queue {x : Reply} (h : x ∈ s.queue addr) : ∃ e ∈ s.queues, x ∈ e.2 := by
  unfold queue at h
  split at h
  · rename_i q hq
    exact ⟨_,List.mem_of_find?_eq_some hq,h⟩
  · cases h

theorem mayHang_of_mem_queue (h : Reply.hang ∈ s.queue addr) : s.mayHang = true := by
  obtain ⟨e,he,hh⟩ := exists_of_mem_queue h
  simp only [mayHang,List.any_eq_true]
  exact ⟨e,he,List.elem_eq_true_of_mem hh⟩

theorem mayHang_of_pop (h : (s.pop addr).1 = .hang) : s.mayHang = true := by
  unfold pop at h
  split at h
  · rename_i r rest hq
    subst h
    exact mayHang_of_mem_queue (hq ▸ List.mem_cons_self)
  · cases h

theorem mayHang_of_mayHang_pop (h : (s.pop addr).2.mayHang = true) : s.mayHang = true := by
  unfold pop at h
  split at h
  · rename_i r rest hq
    simp only [mayHang,setQueue,List.any_map,List.any_eq_true,Function.comp] at h
    obtain ⟨e,he,hh⟩ := h
    by_cases ha : e.1 = addr
    · simp only [ha,if_true] at hh
      exact mayHang_of_mem_queue (hq ▸ List.mem_cons_of_mem r (List.mem_of_elem_eq_true hh))
    · simp only [ha,if_false] at hh
      simp only [mayHang,List.any_eq_true]
      exact ⟨e,he,hh⟩
  · exact h

end Script

namespace Failover

/-- What the lookups here run under: a token nothing cancels, and replies that never come only
under a finite timeout. -/
structure Quiet (env : LookupEnv) (s : Session) : Prop where
  token : s.token = Token.idle
  hang : s.network.mayHang = true → env.options.timeout ≠ .infinite

/-- A session after exchanges: the replies left, the exchanges logged, the token as it was. -/
structure Made (s s' : Session) (calls : List Exchange) (sc : Script) : Prop where
  network : s'.network = sc
  log : s'.log = calls.reverse ++ s.log
  token : s'.token = s.token
  /-- Replies are only taken, never added. -/
  hang : sc.mayHang = true → s.network.mayHang = true

theorem Made.refl (s : Session) : Made s s [] s.network :=
  ⟨rfl,rfl,rfl,id⟩

theorem Made.trans {s₁ s₂ s₃ : Session} {c₁ c₂ : List Exchange} {sc₂ sc₃ : Script}
    (h₁ : Made s₁ s₂ c₁ sc₂) (h₂ : Made s₂ s₃ c₂ sc₃) : Made s₁ s₃ (c₁ ++ c₂) sc₃ where
  network := h₂.network
  log := by rw [h₂.log,h₁.log,List.reverse_append,List.append_assoc]
  token := h₂.token.trans h₁.token
  hang h := h₁.hang (h₁.network ▸ h₂.hang h)

theorem Quiet.of_made {env : LookupEnv} {s s' : Session} {calls : List Exchange} {sc : Script}
    (hq : Quiet env s) (hm : Made s s' calls sc) : Quiet env s' where
  token := hm.token.trans hq.token
  hang h := hq.hang (hm.hang (hm.network ▸ h))

section Run

variable (env : LookupEnv) (request : Request) (data : List UInt8)

open Lookup

theorem exchange_run {s : Session} (hq : Quiet env s) (server : NameServer) (p : Protocol) :
    ∃ s', (exchange env server p request data).run s =
        some (outcome env request (s.network.pop server.addr).1,s') ∧
      Made s s' [⟨server,p,data⟩] (s.network.pop server.addr).2 ∧ Quiet env s' := by
  let s₁ : Session := { s with network := (s.network.pop server.addr).2,
                                log := ⟨server,p,data⟩ :: s.log }
  have hmade : Made s s₁ [⟨server,p,data⟩] (s.network.pop server.addr).2 :=
    ⟨rfl,rfl,rfl,Script.mayHang_of_mayHang_pop⟩
  have hc : s.token.cancelled = false := by rw [hq.token]; rfl
  have ha : s.token.alarm = none := by rw [hq.token]; rfl
  cases hr : (s.network.pop server.addr).1 with
  | fail => exact ⟨_,by simp [s₁,exchange,hc,hr,receive,outcome],hmade,hq.of_made hmade⟩
  | bytes bs => exact ⟨_,by simp [s₁,exchange,hc,hr,receive,outcome],hmade,hq.of_made hmade⟩
  | template t =>
      refine ⟨_,?_,hmade,hq.of_made hmade⟩
      cases hb : t.build request.id request.question <;>
        simp [s₁,exchange,hc,hr,receive,outcome,hb,Except.mapError]
  | hang =>
      -- the wait runs out at the deadline of a finite timeout, the clock moved there or not
      obtain ⟨ms,hms⟩ : ∃ ms, env.options.timeout = .finite ms := by
        cases ht : env.options.timeout with
        | finite ms => exact ⟨ms,rfl⟩
        | infinite => exact absurd ht (hq.hang (Script.mayHang_of_pop hr))
      by_cases h0 : ms = 0
      · exact ⟨_,by simp [s₁,exchange,hc,ha,hr,receive,outcome,waitOut,hms,
          Timeout.deadline,h0],hmade,hq.of_made hmade⟩
      · have hmade' : Made s { s₁ with clock := s.clock + ms } [⟨server,p,data⟩]
            (s.network.pop server.addr).2 := ⟨rfl,rfl,rfl,Script.mayHang_of_mayHang_pop⟩
        exact ⟨_,by simp [s₁,exchange,hc,ha,hr,receive,outcome,waitOut,hms,
          Timeout.deadline,h0,timeoutAt],hmade',hq.of_made hmade'⟩

theorem outcome_ne_cancelled (reply : Reply) : outcome env request reply ≠ .error .cancelled := by
  cases reply with
  | fail => simp [outcome]
  | hang => simp [outcome]
  | bytes bs => cases hp : Response.parse bs.toByteArray env.factory <;> simp [outcome,hp,Except.mapError]
  | template t =>
      cases hb : t.build request.id request.question with
      | error e => simp [outcome,hb]
      | ok bs =>
          cases hp : Response.parse bs.toByteArray env.factory <;> simp [outcome,hb,hp,Except.mapError]

theorem retryOverTcp_eq_true_iff {p : Protocol} {r : Response} : retryOverTcp env p r = true ↔
    r.isTruncated ∧ p = .udp ∧ env.options.transport = .udpWithTcpFallback := by
  simp [retryOverTcp,Bool.and_eq_true,beq_iff_eq,and_assoc]

/-- The attempts at a server make the exchanges of `visit`, in order, and end with its result
and its count of attempts. -/
theorem attempt_run (server : NameServer) {s : Session} (hq : Quiet env s) (k : Nat) (p : Protocol)
    (last : ResolveError) (n : Nat) :
    ∃ s', (attempt env server request data k p last n).run s =
        some (((visit env request data server k p last s.network).result,
          n + (visit env request data server k p last s.network).attempts),s') ∧
      Made s s' (visit env request data server k p last s.network).calls
        (visit env request data server k p last s.network).script ∧ Quiet env s' := by
  induction k generalizing p last n s with
  | zero => exact ⟨s,by simp [attempt,visit],Made.refl s,hq⟩
  | succ k ih =>
      obtain ⟨s₁,h₁,m₁,q₁⟩ := exchange_run env request data hq server p
      cases hf : outcome env request (s.network.pop server.addr).1 with
      | error e =>
          have hne := outcome_ne_cancelled env request (s.network.pop server.addr).1
          rw [hf] at hne
          obtain ⟨s₂,h₂,m₂,q₂⟩ := ih q₁ p e (n + 1)
          rw [m₁.network] at h₂ m₂
          refine ⟨s₂,?_,by simpa [visit,attemptOnce,hf] using m₁.trans m₂,q₂⟩
          simp only [attempt,StateT.run_bind,h₁,hf]
          simp [visit,attemptOnce,hf]
          -- an error other than cancellation goes on to the next attempt
          split
          · contradiction
          · contradiction
          · rename_i heq
            cases heq
            rw [h₂]
            simp only [Option.some.injEq,Prod.mk.injEq,true_and,and_true]
            omega
      | ok r =>
          by_cases hretry : r.isTruncated ∧ p = .udp ∧ env.options.transport = .udpWithTcpFallback
          · -- asked again over TCP within the same attempt
            have hr : retryOverTcp env p r = true := (retryOverTcp_eq_true_iff env).2 hretry
            obtain ⟨htc,rfl,hmode⟩ := hretry
            obtain ⟨s₂,h₂,m₂,q₂⟩ := exchange_run env request data q₁ server .tcp
            rw [m₁.network] at h₂ m₂
            cases hf₂ : outcome env request ((s.network.pop server.addr).2.pop server.addr).1 with
            | ok r' =>
                refine ⟨s₂,?_,by simpa [visit,attemptOnce,hf,htc,hmode,hf₂] using m₁.trans m₂,q₂⟩
                simp [attempt,visit,attemptOnce,h₁,hf,hr,h₂,hf₂,htc,hmode]
            | error e =>
                have hne := outcome_ne_cancelled env request
                  ((s.network.pop server.addr).2.pop server.addr).1
                rw [hf₂] at hne
                obtain ⟨s₃,h₃,m₃,q₃⟩ := ih q₂ .tcp e (n + 1)
                rw [m₂.network] at h₃ m₃
                refine ⟨s₃,?_,by simpa [visit,attemptOnce,hf,htc,hmode,hf₂] using (m₁.trans m₂).trans m₃,q₃⟩
                simp [attempt,visit,attemptOnce,h₁,hf,hr,h₂,hf₂,htc,hmode]
                split
                · contradiction
                · contradiction
                · rename_i heq
                  cases heq
                  rw [h₃]
                  simp only [Option.some.injEq,Prod.mk.injEq,true_and,and_true]
                  omega
          · have hr : retryOverTcp env p r = false :=
              Bool.eq_false_iff.2 fun h => hretry ((retryOverTcp_eq_true_iff env).1 h)
            refine ⟨s₁,?_,by simpa [visit,attemptOnce,hf,hretry] using m₁,q₁⟩
            simp [attempt,visit,attemptOnce,h₁,hf,hr,hretry]

theorem attemptOnce_result_ne_cancelled (server : NameServer) (p : Protocol) (sc : Script) :
    (attemptOnce env request data server p sc).result ≠ .error .cancelled := by
  have h := outcome_ne_cancelled env request (sc.pop server.addr).1
  cases hf : outcome env request (sc.pop server.addr).1 with
  | error e =>
      rw [hf] at h
      simpa [attemptOnce,hf] using h
  | ok r =>
      by_cases hretry : r.isTruncated ∧ p = .udp ∧ env.options.transport = .udpWithTcpFallback
      · simpa [attemptOnce,hf,hretry] using
          outcome_ne_cancelled env request ((sc.pop server.addr).2.pop server.addr).1
      · simp [attemptOnce,hf,hretry]

theorem visit_result_ne_cancelled (server : NameServer) (k : Nat) (p : Protocol) {last : ResolveError}
    (hlast : last ≠ .cancelled) (sc : Script) :
    (visit env request data server k p last sc).result ≠ .error .cancelled := by
  induction k generalizing p last sc with
  | zero => simpa [visit] using hlast
  | succ k ih =>
      have hone := attemptOnce_result_ne_cancelled env request data server p sc
      simp only [visit]
      split
      · exact hone
      · rename_i e he
        exact ih _ (fun h => hone (h ▸ he)) _

theorem errorResponse_run (key : CacheKey) (a : Answer) (s : Session) :
    ∃ s', (errorResponse env key a).run s = some (settle env a,s') ∧ s'.log = s.log := by
  by_cases hc : (env.options.useCache && env.options.cacheFailures) = true
  · refine ⟨{ s with cache := (s.cache.add s.cacheClock key a.response true).2 },?_,rfl⟩
    by_cases ht : env.options.throwOnError = true <;> simp [errorResponse,settle,hc,ht,cacheAdd]
  · refine ⟨s,?_,rfl⟩
    by_cases ht : env.options.throwOnError = true <;> simp [errorResponse,settle,hc,ht]

theorem askServers_run (key : CacheKey) (servers : List NameServer) {s : Session} (hq : Quiet env s)
    (n : Nat) (last : Option ResolveError) (kept : Option Answer) :
    ∃ s', (askServers env request key data servers n last kept).run s =
        some ((search env request data servers n last kept s.network).2,s') ∧
      s'.log = (search env request data servers n last kept s.network).1.reverse ++ s.log := by
  induction servers generalizing n last kept s with
  | nil =>
      cases kept with
      | none => exact ⟨s,by simp [askServers,search],rfl⟩
      | some a =>
          obtain ⟨s',h,hl⟩ := errorResponse_run env key a s
          exact ⟨s',by simpa [askServers,search] using h,by simpa [search] using hl⟩
  | cons server rest ih =>
      have hfirst : firstProtocol env = if env.options.transport = .tcpOnly then .tcp else .udp := rfl
      obtain ⟨s₁,h₁,m₁,q₁⟩ := attempt_run env request data server hq (env.options.retries + 1)
        (firstProtocol env) .timeout n
      have hne := visit_result_ne_cancelled env request data server
        (env.options.retries + 1) (firstProtocol env)
        (show ResolveError.timeout ≠ .cancelled from fun h => by cases h) s.network
      rw [hfirst] at h₁ m₁ hne
      cases hv : (visit env request data server (env.options.retries + 1)
          (if env.options.transport = .tcpOnly then .tcp else .udp) .timeout s.network).result with
      | ok r =>
          by_cases hs : r.responseCode.isSuccess = true
          · -- the answer, offered to the cache if it is complete
            by_cases hcache : env.options.useCache = true ∧ r.isTruncated = false
            · refine ⟨{ s₁ with cache := (s₁.cache.add s₁.cacheClock key r false).2 },?_,?_⟩
              · simp [askServers,search,hfirst,h₁,hv,hs,hcache,cacheAdd]
              · simp [search,hv,hs,m₁.log]
            · refine ⟨s₁,?_,?_⟩
              · simp [askServers,search,hfirst,h₁,hv,hs,hcache]
              · simp [search,hv,hs,m₁.log]
          · by_cases hc : env.options.continueOnError = true
            · -- the error response is kept and the next server asked
              obtain ⟨s₂,h₂,l₂⟩ := ih q₁ (n + (visit env request data server (env.options.retries + 1)
                (if env.options.transport = .tcpOnly then .tcp else .udp) .timeout s.network).attempts)
                last (some (Answer.ofServer r server))
              rw [m₁.network] at h₂ l₂
              refine ⟨s₂,?_,?_⟩
              · simp [askServers,search,hfirst,h₁,hv,hs,hc,h₂]
              · simp [search,hv,hs,hc,l₂,m₁.log]
            · obtain ⟨s₂,h₂,l₂⟩ := errorResponse_run env key (Answer.ofServer r server) s₁
              refine ⟨s₂,?_,?_⟩
              · simp [askServers,search,hfirst,h₁,hv,hs,hc,h₂]
              · simp [search,hv,hs,hc,l₂,m₁.log]
      | error e =>
          -- a server that gave no response leaves its error as the last one
          obtain ⟨s₂,h₂,l₂⟩ := ih q₁ (n + (visit env request data server (env.options.retries + 1)
            (if env.options.transport = .tcpOnly then .tcp else .udp) .timeout s.network).attempts)
            (some e) kept
          rw [m₁.network] at h₂ l₂
          rw [hv] at hne
          refine ⟨s₂,?_,by simp [search,hv,l₂,m₁.log]⟩
          simp [askServers,search,hfirst,h₁,hv]
          split
          · contradiction
          · contradiction
          · rename_i heq
            cases heq
            exact h₂

end Run

/-- A lookup with a token nothing cancels, a cache that does not hold the question, and replies
that never come only under a finite timeout makes exactly the exchanges of `lookup`, in order,
and ends with its outcome. -/
theorem run_eq_failover (env : LookupEnv) (request : Request) (s : Session)
    (hservers : env.servers ≠ []) (htoken : s.token = Token.idle)
    (hmiss : env.options.useCache = true →
      (s.cache.get s.cacheClock (CacheKey.ofQuestion request.question)).1 = none)
    (hhang : s.network.mayHang = true → env.options.timeout ≠ .infinite) :
    ∃ s', (Lookup.run env request).run s = some ((lookup env request s.network).2,s') ∧
      s'.log = (lookup env request s.network).1.reverse ++ s.log := by
  have hempty : env.servers.isEmpty = false := List.isEmpty_eq_false_iff.2 hservers
  have hq : Quiet env s := ⟨htoken,hhang⟩
  cases he : request.encode with
  | error e =>
      -- a request that cannot be written is no exchange at all
      by_cases hc : env.options.useCache = true
      · refine ⟨{ s with cache := (s.cache.get s.cacheClock (CacheKey.ofQuestion request.question)).2 },
          ?_,by simp [lookup,he]⟩
        simp [Lookup.run,lookup,he,hc,Lookup.cacheGet,hmiss hc,hempty]
      · exact ⟨s,by simp [Lookup.run,lookup,he,hc,hempty],by simp [lookup,he]⟩
  | ok data =>
      have hlookup : lookup env request s.network =
          search env request data env.servers 0 none none s.network := by simp [lookup,he]
      rw [hlookup]
      by_cases hc : env.options.useCache = true
      · -- looking at the cache changes the cache only, and it misses
        let s₀ : Session :=
          { s with cache := (s.cache.get s.cacheClock (CacheKey.ofQuestion request.question)).2 }
        obtain ⟨s',h,hl⟩ := askServers_run env request data (CacheKey.ofQuestion request.question)
          env.servers (s := s₀) ⟨htoken,hhang⟩ 0 none none
        exact ⟨s',by simpa [Lookup.run,he,hc,Lookup.cacheGet,hmiss hc,hempty] using h,hl⟩
      · obtain ⟨s',h,hl⟩ := askServers_run env request data (CacheKey.ofQuestion request.question)
          env.servers hq 0 none none
        exact ⟨s',by simpa [Lookup.run,he,hc,hempty] using h,hl⟩

/-- Two servers: the first hangs, refuses and answers garbage, the second answers truncated over
UDP and is asked again over TCP. -/
theorem run_eq_failover_truncated :
    let one : NameServer := ⟨.v4 (Ipv4Address.ofOctets 192 0 2 53) 53⟩
    let two : NameServer := ⟨.v4 (Ipv4Address.ofOctets 198 51 100 53) 53⟩
    let env : LookupEnv := ⟨[one,two],.default,RecordFactory.new⟩
    let request : Request := ⟨7,⟨⟨[[101,120]]⟩,RecordType.a,RecordClass.inet⟩,true,none⟩
    let s : Session := ⟨ResponseCache.new .default,
      ⟨[(one.addr,[.hang,.fail,.bytes [1,2,3]]),(two.addr,[.template { truncated := true },.template {}])]⟩,
      0,Token.idle,0,[]⟩
    env.servers ≠ [] ∧ s.token = Token.idle ∧
      (env.options.useCache = true →
        (s.cache.get s.cacheClock (CacheKey.ofQuestion request.question)).1 = none) ∧
      (s.network.mayHang = true → env.options.timeout ≠ .infinite) ∧
      ∃ s', (Lookup.run env request).run s = some ((lookup env request s.network).2,s') ∧
        s'.log = (lookup env request s.network).1.reverse ++ s.log := by
  intro one two env request s
  have hservers : env.servers ≠ [] := List.cons_ne_nil _ _
  have hmiss : env.options.useCache = true →
      (s.cache.get s.cacheClock (CacheKey.ofQuestion request.question)).1 = none := fun _ => rfl
  have hhang : s.network.mayHang = true → env.options.timeout ≠ .infinite := fun _ => by decide
  exact ⟨hservers,rfl,hmiss,hhang,run_eq_failover env request s hservers rfl hmiss hhang⟩

end Failover

end DnsStub
