import Reveille.Poll.Scheduler

/-!
# The poll services in a system

`Poll.domain` is a system whose events and entities are those of polls. There a procedure becomes an
activity (`Procedure.activity`): events are sent on the bus, the time is read on a clock, and the
store is whatever answers its requests. `Duty.service` is the service of a duty.
-/

namespace Reveille.Poll

/-- A system about polls. -/
abbrev domain (Service Sink : Type) (Calls : Signature) (State Result : Type) : Domain :=
  { Event := Event, Id := Id, decEqId := inferInstance, Service, Sink, Calls, State, Result }

variable {Service Sink : Type} {Calls : Signature} {State Result : Type}

/-- Whatever answers requests to the store in a system. -/
abbrev StoreAccess (D : Domain) := (q : Store.Request) → Activity D q.Reply

/-- Answers a request in a system. -/
def Request.inSystem (store : StoreAccess (domain Service Sink Calls State Result))
    (time : TimeSource) :
    (q : Request) → Activity (domain Service Sink Calls State Result) q.Reply
  | .store q => store q
  | .readTime => Activity.perform (.readTime time)
  | .publish e => Activity.send e
  | .log line => Activity.log line

def Procedure.activity {α : Type}
    (store : StoreAccess (domain Service Sink Calls State Result)) (time : TimeSource)
    (p : Procedure α) : Activity (domain Service Sink Calls State Result) α :=
  Program.interpret (Request.inSystem store time) p

/-- The service of a duty. -/
def Duty.service (store : StoreAccess (domain Service Sink Calls State Result))
    (time : TimeSource) (jitter : Jitter) (interval : Duration) (d : Duty) :
    Reveille.Service (domain Service Sink Calls State Result) :=
  { name := d.name
    jitter
    time
    processOne := fun id => (d.process id).activity store time
    checkAll := .done (d.items.interpret (Request.inSystem store time))
    checkOne := fun id => (d.check id).activity store time
    checkInterval := .done interval
    filterEvent := fun e => .done (d.listensTo e)
    receiveEvent := fun e => (d.receive e).activity store time }

end Reveille.Poll
