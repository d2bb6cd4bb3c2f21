import Listing.Plan
import Listing.Report

/-! A policy behind a path: the query string of a request becomes a plan, or a rejection that is
noted with the path and answered with its report. -/
namespace Listing
open Listing.Parameter

structure Endpoint where
  policy : Policy
  path : String

namespace Endpoint

def plan (x : Endpoint) (queryString : String) : Except Fault Plan :=
  x.policy.plan (.ofQueryString queryString)

def notes (x : Endpoint) (queryString : String) : List Event :=
  x.policy.planNotes (.ofQueryString queryString) ++
    match x.plan queryString with
    | .error (.rejected r) => [.requestRejected x.path r.message]
    | _ => []

def answer (r : Rejection) : Nat × String := (Report.status, r.report.json)

end Endpoint
end Listing
