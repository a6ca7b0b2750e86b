import GatewayLauncher.Command.CheckRelease
import GatewayLauncher.Delegate.History
import GatewayLauncher.Main
import GatewayLauncher.Proofs.Command.BumpDocument
import GatewayLauncher.Proofs.Command.BumpSequence
import GatewayLauncher.Proofs.Command.BumpVersion
import GatewayLauncher.Proofs.Command.CheckRelease
import GatewayLauncher.Proofs.Command.Ending
import GatewayLauncher.Proofs.Command.Gateway
import GatewayLauncher.Proofs.Command.Noninterference
import GatewayLauncher.Proofs.Delegate.Consistency
import GatewayLauncher.Proofs.Delegate.Ending
import GatewayLauncher.Proofs.Delegate.Entering
import GatewayLauncher.Proofs.Delegate.Escalation
import GatewayLauncher.Proofs.Delegate.Frame
import GatewayLauncher.Proofs.Delegate.Leaving
import GatewayLauncher.Proofs.Delegate.Mirroring
import GatewayLauncher.Proofs.Delegate.Relaying
import GatewayLauncher.Proofs.Journal
import GatewayLauncher.Proofs.Journal.Level
import GatewayLauncher.Proofs.Launch
import GatewayLauncher.Proofs.Launch.Account
import GatewayLauncher.Proofs.Platform
import GatewayLauncher.Proofs.Release.Unexpected
import GatewayLauncher.Proofs.Release.Verdict
import GatewayLauncher.Proofs.Release.Warnings
import GatewayLauncher.Proofs.Selection
import GatewayLauncher.Proofs.Selection.Configured
import GatewayLauncher.Proofs.Selection.Gate
import GatewayLauncher.Proofs.Selection.Reported
import GatewayLauncher.Proofs.Selection.Spelling
import GatewayLauncher.Proofs.Settings
import GatewayLauncher.Proofs.Settings.Fields
import GatewayLauncher.Proofs.Settings.Survival
import GatewayLauncher.Proofs.Text.LetterCase
import GatewayLauncher.Proofs.Toml.Exchange
import GatewayLauncher.Proofs.Toml.Grammar
import GatewayLauncher.Proofs.Toml.Limits
import GatewayLauncher.Proofs.Toml.Line
import GatewayLauncher.Proofs.Toml.Lines
import GatewayLauncher.Proofs.Toml.Local
import GatewayLauncher.Proofs.Toml.Reader
import GatewayLauncher.Proofs.Version.Order
import GatewayLauncher.Proofs.Version.Precedence
