/-
Requests without what authorizes them. If two networks answer requests alike that
differ in their authorization only, then such requests come to the same through
all redirects, and so do the requests that are made on the way (`send_alike`).
-/
import ClusterOutput.Http.Transport

namespace ClusterOutput.Http

/-- The request without what authorizes it. -/
def Request.anonymous (r : Request) : Request :=
  { r with headers := { r.headers with authorization := [] } }

/-- The networks answer requests alike that differ in their authorization only. -/
structure Network.Alike (net net' : Network) : Prop where
  reaches : net.reaches = net'.reaches
  reply : ∀ n r r', r.anonymous = r'.anonymous → net.reply n r = net'.reply n r'

/-- The requests differ in their authorization only. -/
def WiresAlike (wire wire' : List Request) : Prop :=
  wire.map Request.anonymous = wire'.map Request.anonymous

/-- What comes of requests that differ in their authorization only. -/
structure SentAlike {α : Type} (r r' : α × List Request) : Prop where
  result : r.1 = r'.1
  wire : WiresAlike r.2 r'.2

section

variable {r r' : Request}

theorem Request.make_anonymous (method : String) (url : Url)
    (credentials credentials' : Option Credentials) (body : Option Bytes) :
    (Request.make method url credentials body).anonymous =
      (Request.make method url credentials' body).anonymous := rfl

theorem Request.url_eq (h : r.anonymous = r'.anonymous) : r.url = r'.url := by
  simpa [anonymous] using congrArg (·.url) h

theorem Request.method_eq (h : r.anonymous = r'.anonymous) : r.method = r'.method := by
  simpa [anonymous] using congrArg (·.method) h

/-- To leave out authorization on the way to another host leaves out nothing else. -/
theorem Request.leaving_anonymous (r : Request) (previous : Url) :
    (r.leaving previous).anonymous = r.anonymous := by
  unfold leaving
  split <;> rfl

theorem redirected_anonymous (status : Nat) (target : Url) (r : Request) :
    (redirected status target r).anonymous = redirected status target r.anonymous := by
  by_cases hget : turnsToGet status r.method = true
  · simp only [redirected, Request.anonymous, hget, if_true]
    rfl
  · simp only [redirected, Request.anonymous, hget, if_false, Bool.false_eq_true]

theorem targetOf_alike (h : r.anonymous = r'.anonymous) (status : Nat) (location : Option String) :
    targetOf r status location = targetOf r' status location := by
  unfold targetOf
  rw [Request.url_eq h]

theorem Outcome.reply_alike (h : r.anonymous = r'.anonymous) (origin : Url) (outcome : Outcome) :
    outcome.reply origin r = outcome.reply origin r' := by
  cases outcome <;> simp only [reply, Request.url_eq h, Request.method_eq h]

end

variable {net net' : Network} {wire wire' : List Request} {r r' : Request}

theorem exchange_alike (hnet : net.Alike net') (hwire : WiresAlike wire wire')
    (h : r.anonymous = r'.anonymous) : SentAlike (exchange net wire r) (exchange net' wire' r') := by
  have hlength : wire.length = wire'.length := by
    have hmap := congrArg List.length hwire
    rwa [List.length_map, List.length_map] at hmap
  unfold exchange
  rw [hnet.reaches, Request.url_eq h, hlength, hnet.reply wire'.length r r' h]
  split
  · refine ⟨rfl, ?_⟩
    rw [WiresAlike, List.map_append, List.map_append, hwire, List.map_singleton, List.map_singleton, h]
  · exact ⟨rfl, hwire⟩

theorem follow_alike (hnet : net.Alike net') (origin : Url) (left : Nat)
    {held held' current current' : Request} {wire wire' : List Request}
    (hheld : held.anonymous = held'.anonymous) (hcurrent : current.anonymous = current'.anonymous)
    (hwire : WiresAlike wire wire') :
    SentAlike (follow net origin left held current wire)
      (follow net' origin left held' current' wire') := by
  have hmade := exchange_alike hnet hwire hcurrent
  unfold follow
  generalize exchange net wire current = x at hmade ⊢
  generalize exchange net' wire' current' = x' at hmade ⊢
  obtain ⟨outcome, made⟩ := x
  obtain ⟨_, made'⟩ := x'
  obtain ⟨heq, hmade⟩ := hmade
  obtain rfl : outcome = _ := heq
  simp only [outcome.reply_alike hcurrent, Request.url_eq hcurrent]
  split
  · exact ⟨rfl, hmade⟩
  next status location _ =>
    rw [targetOf_alike hcurrent]
    split
    · exact ⟨rfl, hmade⟩
    · cases left <;> exact ⟨rfl, hmade⟩
    next target _ =>
      cases left with
      | zero => exact ⟨rfl, hmade⟩
      | succ left =>
        have hnext : (redirected status target held).anonymous =
            (redirected status target held').anonymous := by
          rw [redirected_anonymous, redirected_anonymous, hheld]
        refine follow_alike hnet origin left hnext ?_ hmade
        rw [Request.leaving_anonymous, Request.leaving_anonymous, hnext]

/-- Requests that differ in their authorization only come to the same. -/
theorem send_alike (hnet : net.Alike net') (hwire : WiresAlike wire wire')
    (h : r.anonymous = r'.anonymous) : SentAlike (send net wire r) (send net' wire' r') := by
  unfold send
  rw [Request.url_eq h]
  split
  · exact follow_alike hnet r'.url redirectLimit h h hwire
  · exact ⟨rfl, hwire⟩

end ClusterOutput.Http
