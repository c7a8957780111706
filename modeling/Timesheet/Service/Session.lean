import Timesheet.Service.Batch

namespace Timesheet

open Service

inductive Request where
  | create (input : NewEntry) (owner : String) (now : Instant)
  | start (fields : EntryFields) (owner : String) (now : Instant)
  | stop (id : String) (now : Instant)
  | update (id : String) (patch : Patch) (now : Instant)
  | delete (id : String) (now : Instant)
  | updateTags (id : String) (tags : List String) (mode : TagMode) (now : Instant)
  | updateBatch (ids : String) (patch : Patch) (now : Instant)
  | updateTagsBatch (ids : String) (tags : List String) (mode : TagMode) (now : Instant)
  | syncTaskTime (id : String) (now : Instant)
  | syncProjectTime (id : String) (now : Instant)
  | get (id : String)
  | running (owner : String) (page : Page)
  | range (owner : String) (page : Page) (first last : Instant)
  | dashboard (owner : String) (now : Instant)

inductive Reply where
  | entry (r : Except ServiceFault Entry)
  | batch (items : List BatchItem)
  | taskTotal (r : Except ServiceFault TaskTotal)
  | projectTotal (r : Except ServiceFault ProjectTotal)
  | entries (r : Except ServiceFault (List Entry))
  | dashboard (r : Except ServiceFault Dashboard)

namespace Request

def program (policy : Policy) : Request → Program Reply
  | create input owner now => Reply.entry <$> (Service.create input owner now).run
  | start fields owner now => Reply.entry <$> (Service.start policy fields owner now).run
  | stop id now => Reply.entry <$> (Service.stop id now).run
  | update id patch now => Reply.entry <$> (Service.update policy id patch now).run
  | delete id now => Reply.entry <$> (Service.delete policy id now).run
  | updateTags id tags mode now => Reply.entry <$> (Service.updateTags id tags mode now).run
  | updateBatch ids patch now => Reply.batch <$> Service.updateBatch policy ids patch now
  | updateTagsBatch ids tags mode now =>
    Reply.batch <$> Service.updateTagsBatch ids tags mode now
  | syncTaskTime id now => Reply.taskTotal <$> (Service.syncTaskTime id now).run
  | syncProjectTime id now => Reply.projectTotal <$> (Service.syncProjectTime id now).run
  | get id => Reply.entry <$> (Service.get id).run
  | running owner page => Reply.entries <$> (Service.running owner page).run
  | range owner page first last => Reply.entries <$> (Service.range owner page first last).run
  | dashboard owner now => Reply.dashboard <$> (Service.dashboard owner now).run

def clock? : Request → Option Instant
  | create _ _ now => some now
  | start _ _ now => some now
  | stop _ now => some now
  | update _ _ now => some now
  | delete _ now => some now
  | updateTags _ _ _ now => some now
  | updateBatch _ _ now => some now
  | updateTagsBatch _ _ _ now => some now
  | syncTaskTime _ now => some now
  | syncProjectTime _ now => some now
  | _ => none

end Request

def session (policy : Policy) : List Request → Program (List Reply)
  | [] => return []
  | r :: rs => do
    let reply ← r.program policy
    let replies ← session policy rs
    return reply :: replies

end Timesheet
