import MovieReservation.Lib.Retry
import MovieReservation.Services.Admin
import MovieReservation.Services.Catalogue

/-! The lifetimes of cached views, and the server as a whole: every request, job and listener,
with a Redis that drops a key when its lifetime is over. The list of halls is the one view that
no other module reads. -/

namespace MovieReservation

open Lib Lib.Prog

/-! ### The list of halls -/

def Db.listHalls (db : Db) : List Hall := db.halls.rows.insertionSort fun a b => a.id ≤ b.id

inductive HallQuery where
  | listHalls

abbrev AppCmd := Cmd ⊕ HallQuery

abbrev AppReply : AppCmd → Type := SumReply Cmd.Reply fun _ => List Hall

abbrev AppM := Prog AppCmd AppReply Err

namespace HallsRepository

def listHalls : AppM (List Hall) := issue (R := AppReply) (.inr .listHalls : AppCmd)

end HallsRepository

namespace ScreeningsCache

def getHalls : M (Option (List Hall)) := cacheGet .hallList

def setHalls (halls : List Hall) : M Unit := cacheSet .hallList halls

end ScreeningsCache

namespace HallsService

def listHalls : AppM (List Hall) := do
  match ← ScreeningsCache.getHalls.left with
  | some cached => return cached
  | none =>
    let halls ← HallsRepository.listHalls
    (ScreeningsCache.setHalls halls).left
    return halls

end HallsService

/-! ### Lifetimes -/

namespace ScreeningsCache

def seatMapTtlSeconds : ℕ := 300

def screeningDetailTtlSeconds : ℕ := 60

def movieScreeningsTtlSeconds : ℕ := 60

def hallListTtlSeconds : ℕ := 300

end ScreeningsCache

namespace MoviesCache

def movieTtlSeconds : ℕ := 3600

def listTtlSeconds : ℕ := 60

end MoviesCache

/-- The `EX` that a key is set with. -/
def CacheKey.ttlSeconds : CacheKey → ℕ
  | .seatMap _ => ScreeningsCache.seatMapTtlSeconds
  | .screeningDetail _ => ScreeningsCache.screeningDetailTtlSeconds
  | .movieScreenings _ => ScreeningsCache.movieScreeningsTtlSeconds
  | .hallList => ScreeningsCache.hallListTtlSeconds
  | .movie _ => MoviesCache.movieTtlSeconds
  | .nowShowing | .comingSoon => MoviesCache.listTtlSeconds

/-- The world, and when Redis drops each key that is set. -/
structure Timed (σ : Type) where
  world : World σ
  expires : CacheKey → Time

namespace Timed
variable {σ A : Type} (api : StripeApi σ A)

def exec : (c : AppCmd) → Timed σ → Except Err (AppReply c) × Timed σ
  | .inl (.cacheSet k v), t =>
    let out := World.exec api (.cacheSet k v) t.world
    (out.1, ⟨out.2, Function.update t.expires k (t.world.now + k.ttlSeconds * 1000)⟩)
  | .inl c, t =>
    let out := World.exec api c t.world
    (out.1, { t with world := out.2 })
  | .inr .listHalls, t => (.ok t.world.db.listHalls, t)

/-- Entries lapse in the millisecond of their expiry, as in `Keyspace.live`. -/
def elapse : Env A → Timed σ → Timed σ
  | .advance ms, t =>
    let w := t.world.elapse api (.advance ms)
    let cache k := if t.expires k ≤ w.now then none else w.redis.cache k
    { t with world := { w with redis := { w.redis with cache } } }
  | e, t => { t with world := t.world.elapse api e }

end Timed

/-! ### The server -/

inductive AppRequest where
  | catalogue (r : CatalogueRequest)
  | listHalls
  | booking (r : BookingRequest)
  | listener (l : Listener)

inductive AppResponse where
  | catalogue (r : CatalogueResponse)
  | halls (halls : List Hall)
  | booking (r : Response)
  | done

def AppRequest.handle : AppRequest → AppM AppResponse
  | catalogue r => .catalogue <$> r.handle.left
  | listHalls => .halls <$> HallsService.listHalls
  | booking r => .booking <$> r.handle.left
  | listener l => (fun _ => .done) <$> l.handle.left

section App
variable {σ A : Type} (api : StripeApi σ A)

def AppCmd.fault : AppCmd → Err → Bool
  | .inl c, e => c.fault e
  | .inr _, e => e = .unreachable

def appSystem : System AppCmd AppReply Err (Timed σ) AppRequest (Env A) AppResponse where
  exec _ := Timed.exec api
  ready _ _ _ := true
  fault := AppCmd.fault
  env := Timed.elapse api
  handler := AppRequest.handle

abbrev AppTurn (A : Type) := System.Submission Err AppRequest (Env A)

/-- The request may be answered so, if its commands end in some way. -/
def AppAnswers (t : Timed σ) (r : AppRequest) (a : AppResponse) : Prop :=
  ∃ os cs t', (appSystem api).attempt 0 os r.handle t = some (cs, .ok a, t')

end App

end MovieReservation
