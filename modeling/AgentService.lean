import AgentService.Gateway.Chat
import AgentService.Gateway.Claims
import AgentService.Gateway.Output
import AgentService.Migration.Rollback
import AgentService.Outbox.Attempts
import AgentService.Outbox.Recording
import AgentService.Platform.AuditRetries
import AgentService.Platform.Completion
import AgentService.Platform.Fencing
import AgentService.Platform.Provenance
import AgentService.Platform.Release
import AgentService.Queue.Completion
import AgentService.Queue.Isolation
import AgentService.Queue.Refinement
import AgentService.Runners.Freshness
import AgentService.Runners.Leaks
import AgentService.Sessions.Conversations
import AgentService.Sessions.History
import AgentService.Sessions.Versions
import AgentService.Storage.Agreement
import AgentService.Storage.Batches
import AgentService.Storage.Integrity
import AgentService.Storage.Lease
import AgentService.Vectors.Projection
import AgentService.Vectors.Worker
import AgentService.Channels.Telegram
import AgentService.Channels.Wecom
import AgentService.Go.Any
import AgentService.Storage.Copies
