import SafetyHub.Deadline.Script
import SafetyHub.Main
import SafetyHub.Proofs.Refresh.Lifecycle
import SafetyHub.Proofs.Hub.Agreement
import SafetyHub.Proofs.Hub.Durability
import SafetyHub.Proofs.Hub.Eviction
import SafetyHub.Proofs.Refresh.FanOut
import SafetyHub.Proofs.Overview.Issues
import SafetyHub.Proofs.Hub.Expiry
import SafetyHub.Proofs.Session.Silent
import SafetyHub.Proofs.Deadline.Arming
import SafetyHub.Proofs.Hub.Saving
import SafetyHub.Proofs.Dismissal.Resurfacing
import SafetyHub.Proofs.Hub.InPlace
import SafetyHub.Proofs.Hub.Restart
import SafetyHub.Proofs.Audience.Delivery
import SafetyHub.Proofs.Hub.Failures
import SafetyHub.Proofs.Hub.Messages
import SafetyHub.Proofs.Hub.Rescheduling
import SafetyHub.Proofs.Refresh.Tokens
import SafetyHub.Proofs.Catalog.Scope
import SafetyHub.Proofs.Deadline.History
import SafetyHub.Proofs.Deadline.Course
import SafetyHub.Proofs.Hub.Actions
import SafetyHub.Proofs.Overview.Summary
import SafetyHub.Proofs.Hub.Isolation
import SafetyHub.Proofs.Hub.Removal
import SafetyHub.Proofs.Hub.Repetition
import SafetyHub.Proofs.Overview.Errors
import SafetyHub.Proofs.Profile.Partition
import SafetyHub.Proofs.Hub.Configured
import SafetyHub.Proofs.Catalog.Survey
import SafetyHub.Proofs.Dismissal.Reconciling
import SafetyHub.Proofs.Dismissal.Returning
import SafetyHub.Proofs.Json.Documents
import SafetyHub.Proofs.Archive.RoundTrip
import SafetyHub.Proofs.Hub.Dismissing
import SafetyHub.Proofs.Profile.Members
import SafetyHub.Proofs.Session.Clearing
import SafetyHub.Proofs.Deadline.Scheduling
import SafetyHub.Proofs.Overview.Drafting
import SafetyHub.Proofs.Hub.Recording
