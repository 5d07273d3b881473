import CecFix.Interleaving
import CecFix.PowerStatus

/-!
# The cached query and the power commands, one step at a time

`queryPowerStatusCached` against `sendOn` or `sendOff`. A whole exchange is one step
here, and so is each read and each write of `lastPowerQueryResult` and of the two
fields of `lastPowerQuery`. The clock is not shared, its reading is an argument. A
log records the exchanges in the order in which they took place; no step reads it.
Each of the two run alone does what its sequential definition does.
-/

namespace CecFix.Lan

inductive Mark where
  | query (r : SendResult)
  | command (r : SendResult)

structure Globals where
  lan : LanState
  log : List Mark

inductive Tried where
  | again (retry : ℕ) (response : Bytes)
  | ended (retCode : Int) (response : Bytes)

def Globals.exchange (g : Globals) (mark : SendResult → Mark) (code : Bytes)
    (scripts : ℕ → SocketScript) (retry : ℕ) (response : Bytes) : Globals × Tried :=
  let r := sendCommand g.lan.hasActiveConnection g.lan.host code response (scripts retry)
  (⟨{ g.lan with hasActiveConnection := r.active }, g.log ++ [mark r]⟩,
    if r.retCode < 0 ∧ retry + 1 < maxRetryCount then .again (retry + 1) r.response
    else .ended r.retCode r.response)

inductive CachedPc where
  | readResult
  | readSec
  | readNsec (sec : Int)
  | query (retry : ℕ) (response : Bytes)
  | storeResult (status : Int)
  | storeSec
  | storeNsec
  | readForLog
  | readReturn
  | done (result : Int)

structure CachedCall where
  pc : CachedPc
  /-- No status was cached on entry: this branch returns without the log line. -/
  wasEmpty : Bool

def CachedCall.start : CachedCall := ⟨.readResult, false⟩

def cachedStep (now : Timespec) (scripts : ℕ → SocketScript) :
    Globals × CachedCall → Globals × CachedCall
  | (g, c) =>
    match c.pc with
    | .readResult =>
      if g.lan.lastPowerQueryResult = -1 then (g, ⟨.query 0 (CString.zeros maxResponseSize), true⟩)
      else (g, { c with pc := .readSec })
    | .readSec => (g, { c with pc := .readNsec g.lan.lastPowerQuery.tvSec })
    | .readNsec sec =>
      if powerQueryTtlMs ≤ msElapsed now ⟨sec, g.lan.lastPowerQuery.tvNsec⟩ then
        (g, { c with pc := .query 0 (CString.zeros maxResponseSize) })
      else (g, { c with pc := .readForLog })
    | .query retry response =>
      match g.exchange .query queryPowerCommand scripts retry response with
      | (g', .again retry' response') => (g', { c with pc := .query retry' response' })
      | (g', .ended retCode response') =>
        (g', { c with pc := .storeResult (if retCode < 0 then -1 else statusOf response') })
    | .storeResult status =>
      ({ g with lan.lastPowerQueryResult := status }, { c with pc := .storeSec })
    | .storeSec => ({ g with lan.lastPowerQuery.tvSec := now.tvSec }, { c with pc := .storeNsec })
    | .storeNsec =>
      ({ g with lan.lastPowerQuery.tvNsec := now.tvNsec },
        { c with pc := if c.wasEmpty then .readReturn else .readForLog })
    | .readForLog => (g, { c with pc := .readReturn })
    | .readReturn => (g, { c with pc := .done g.lan.lastPowerQueryResult })
    | .done _ => (g, c)

inductive PowerPc where
  | command (retry : ℕ) (response : Bytes)
  | clear
  | done (ret : Int)

def PowerPc.start : PowerPc := .command 0 (CString.zeros maxResponseSize)

def powerStep (code : Bytes) (scripts : ℕ → SocketScript) :
    Globals × PowerPc → Globals × PowerPc
  | (g, .command retry response) =>
    match g.exchange .command code scripts retry response with
    | (g', .again retry' response') => (g', .command retry' response')
    | (g', .ended retCode _) => (g', if retCode < 0 then .done retCode else .clear)
  | (g, .clear) => ({ g with lan := queryPowerStatusCacheClear g.lan }, .done 0)
  | (g, .done ret) => (g, .done ret)

section Exchange
variable {g : Globals} {mark : SendResult → Mark} {code : Bytes} {scripts : ℕ → SocketScript}
  {retry : ℕ} {response : Bytes}

def Globals.after (g : Globals) (mark : SendResult → Mark) (r : SendResult) : Globals :=
  ⟨{ g.lan with hasActiveConnection := r.active }, g.log ++ [mark r]⟩

theorem exchange_again {r : SendResult}
    (hr : sendCommand g.lan.hasActiveConnection g.lan.host code response (scripts retry) = r)
    (hcode : r.retCode < 0) (hretry : retry + 1 < maxRetryCount) :
    g.exchange mark code scripts retry response = (g.after mark r, .again (retry + 1) r.response) := by
  simp [Globals.exchange, Globals.after, hr, hcode, hretry]

theorem exchange_ended {r : SendResult}
    (hr : sendCommand g.lan.hasActiveConnection g.lan.host code response (scripts retry) = r)
    (h : 0 ≤ r.retCode ∨ maxRetryCount ≤ retry + 1) :
    g.exchange mark code scripts retry response = (g.after mark r, .ended r.retCode r.response) := by
  have hneg : ¬ (r.retCode < 0 ∧ retry + 1 < maxRetryCount) := by omega
  simp [Globals.exchange, Globals.after, hr, hneg]

end Exchange

theorem exchanges_alone {L : Type} (f : Globals × L → Globals × L) (mark : SendResult → Mark)
    (code : Bytes) (scripts : ℕ → SocketScript) (again : ℕ → Bytes → L) (ended : Int → Bytes → L)
    (hf : ∀ g retry response, f (g, again retry response) =
      match g.exchange mark code scripts retry response with
      | (g', .again retry' response') => (g', again retry' response')
      | (g', .ended retCode response') => (g', ended retCode response'))
    (fuel retry : ℕ) (hfuel : retry + fuel + 1 = maxRetryCount) (g : Globals) (response : Bytes)
    (events : List SockEvent) :
    let r := Retry.loop (attempt g.lan.host code scripts) (fuel + 1) retry (-1)
      ⟨response, g.lan.hasActiveConnection, events⟩
    ∃ n log, f^[n] (g, again retry response) =
      (⟨{ g.lan with hasActiveConnection := r.2.active }, log⟩, ended r.1 r.2.response) := by
  induction fuel generalizing retry g response events with
  | zero =>
    obtain ⟨r, hr⟩ : ∃ r, sendCommand g.lan.hasActiveConnection g.lan.host code response
      (scripts retry) = r := ⟨_, rfl⟩
    refine ⟨1, g.log ++ [mark r], ?_⟩
    rw [Function.iterate_one, hf, exchange_ended hr (Or.inr hfuel.ge)]
    subst hr
    rfl
  | succ fuel ih =>
    obtain ⟨r, hr⟩ : ∃ r, sendCommand g.lan.hasActiveConnection g.lan.host code response
      (scripts retry) = r := ⟨_, rfl⟩
    have hatt : attempt g.lan.host code scripts retry
        ⟨response, g.lan.hasActiveConnection, events⟩ =
          (r.retCode, ⟨r.response, r.active, events ++ r.events⟩) := by
      simp [attempt, hr]
    rw [Retry.loop, if_pos (by omega), hatt]
    by_cases hneg : r.retCode < 0
    · have hretry : retry + 1 < maxRetryCount := by omega
      obtain ⟨n, log, hn⟩ := ih (retry + 1) (by omega) (g.after mark r) r.response
        (events ++ r.events)
      refine ⟨n + 1, log, ?_⟩
      rw [Function.iterate_succ_apply, hf, exchange_again hr hneg hretry, Retry.loop_code hneg]
      exact hn
    · have hcode := Int.not_lt.mp hneg
      refine ⟨1, g.log ++ [mark r], ?_⟩
      rw [Function.iterate_one, hf, exchange_ended hr (Or.inl hcode), Retry.loop_of_nonneg hcode]
      rfl

theorem refresh_alone (now : Timespec) (scripts : ℕ → SocketScript) (g : Globals)
    (wasEmpty : Bool) :
    let r := refresh g.lan now scripts
    ∃ n log, (cachedStep now scripts)^[n]
        (g, ⟨.query 0 (CString.zeros maxResponseSize), wasEmpty⟩) =
      (⟨r.state, log⟩, ⟨.done r.value, wasEmpty⟩) := by
  obtain ⟨n, log, hn⟩ := exchanges_alone (cachedStep now scripts) .query queryPowerCommand scripts
    (fun retry response => ⟨.query retry response, wasEmpty⟩)
    (fun retCode response =>
      ⟨.storeResult (if retCode < 0 then -1 else statusOf response), wasEmpty⟩)
    (fun g retry response => rfl) 4 0 rfl g (CString.zeros maxResponseSize) []
  cases wasEmpty with
  | true =>
    refine ⟨4 + n, log, ?_⟩
    rw [Function.iterate_add_apply, hn]
    rfl
  | false =>
    refine ⟨5 + n, log, ?_⟩
    rw [Function.iterate_add_apply, hn]
    rfl

/-- Run without the other call in between, the steps are `queryPowerStatusCached`. -/
theorem cached_alone (now : Timespec) (scripts : ℕ → SocketScript) (g : Globals) :
    let r := queryPowerStatusCached g.lan now scripts
    ∃ n log wasEmpty, (cachedStep now scripts)^[n] (g, .start) =
      (⟨r.state, log⟩, ⟨.done r.value, wasEmpty⟩) := by
  rw [queryPowerStatusCached]
  split_ifs with hempty hold
  · obtain ⟨n, log, hn⟩ := refresh_alone now scripts g true
    refine ⟨n + 1, log, true, ?_⟩
    rw [Function.iterate_succ_apply]
    simpa [cachedStep, CachedCall.start, hempty] using hn
  · obtain ⟨n, log, hn⟩ := refresh_alone now scripts g false
    refine ⟨n + 3, log, false, ?_⟩
    rw [Function.iterate_add_apply]
    simpa [cachedStep, CachedCall.start, hempty, hold] using hn
  · refine ⟨5, g.log, false, ?_⟩
    simp [cachedStep, CachedCall.start, hempty, hold]

theorem sendPower_alone (code : Bytes) (scripts : ℕ → SocketScript) (g : Globals) :
    let r := sendPower code g.lan scripts
    ∃ n log, (powerStep code scripts)^[n] (g, .start) = (⟨r.state, log⟩, .done r.value) := by
  obtain ⟨n, log, hn⟩ := exchanges_alone (powerStep code scripts) .command code scripts PowerPc.command
    (fun retCode _ => if retCode < 0 then .done retCode else .clear)
    (fun g retry response => rfl) 4 0 rfl g (CString.zeros maxResponseSize) []
  have hended : (powerStep code scripts)^[n] (g, .start) =
      (⟨(commandHost code g.lan scripts).state, log⟩,
        if (commandHost code g.lan scripts).value.1 < 0 then
          .done (commandHost code g.lan scripts).value.1
        else .clear) := hn
  refine ⟨1 + n, log, ?_⟩
  rw [Function.iterate_add_apply, hended]
  by_cases hneg : (commandHost code g.lan scripts).value.1 < 0
  · rw [if_pos hneg, sendPower, if_pos hneg]
    rfl
  · rw [if_neg hneg, sendPower, if_neg hneg]
    rfl

end CecFix.Lan
