import IsekaiTerminal.Lib.Transition
import IsekaiTerminal.Lib.Table
import IsekaiTerminal.Lib.ThreadPool
import IsekaiTerminal.Lib.Timed
import IsekaiTerminal.Protocol.Attach
import IsekaiTerminal.Serve.Slot
import IsekaiTerminal.Serve.Lemmas.Arbiter
import IsekaiTerminal.Serve.Lemmas.History
import IsekaiTerminal.Serve.Aggregate
import IsekaiTerminal.Serve.Lemmas.Aggregate
import IsekaiTerminal.Serve.SocketLife
import IsekaiTerminal.Serve.Lemmas.SocketLife
import IsekaiTerminal.Lib.Window
import IsekaiTerminal.Mobile.Reattach
import IsekaiTerminal.Mobile.Theorems
import IsekaiTerminal.Serve.Runtime
import IsekaiTerminal.Serve.Lemmas.Runtime
import IsekaiTerminal.Serve.Theorems
import IsekaiTerminal.Pipe.ReplayBuffer
import IsekaiTerminal.Pipe.Session
import IsekaiTerminal.Pipe.Lemmas.C2h
import IsekaiTerminal.Pipe.Lemmas.H2c
import IsekaiTerminal.Pipe.Theorems
import IsekaiTerminal.Quicmux.Resume
import IsekaiTerminal.Reconnect.Theorems
import IsekaiTerminal.Orchestrator.Theorems
import IsekaiTerminal.Resume.Theorems
import IsekaiTerminal.Rebind.Theorems
import IsekaiTerminal.Recovery.Theorems
import IsekaiTerminal.Protocol.Theorems
import IsekaiTerminal.Transport.Theorems
import IsekaiTerminal.Tty.Theorems
import IsekaiTerminal.Emulator.Theorems
import IsekaiTerminal.SshPool.Theorems
import IsekaiTerminal.PathHealth.Theorems
import IsekaiTerminal.SessionLoop.Theorems
import IsekaiTerminal.Mux.Theorems
import IsekaiTerminal.SshConfig.Theorems
import IsekaiTerminal.Profile.Theorems
import IsekaiTerminal.Trust.Theorems
import IsekaiTerminal.Tmux.Theorems
import IsekaiTerminal.HelperCache.Theorems
import IsekaiTerminal.Build.Theorems
import IsekaiTerminal.Quicmux.Theorems
import IsekaiTerminal.Stun.Theorems
import IsekaiTerminal.Escape.Theorems
import IsekaiTerminal.Trzsz.Theorems
import IsekaiTerminal.Socks.Theorems
import IsekaiTerminal.Console.Theorems
import IsekaiTerminal.Command.Theorems
import IsekaiTerminal.Wrapper.Theorems
