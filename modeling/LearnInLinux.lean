import LearnInLinux.Library.Transition
import LearnInLinux.Reactor.Safety
import LearnInLinux.Reactor.EndOfStream
import LearnInLinux.NetCal.Session
import LearnInLinux.Calculators
import LearnInLinux.Reactor.Codec
import LearnInLinux.Reactor.Drain
import LearnInLinux.Reactor.Isolation
import LearnInLinux.Pthread.RingQueue
import LearnInLinux.Pthread.RingCalls
import LearnInLinux.Pthread.BlockQueue
import LearnInLinux.Pthread.ThreadPool
import LearnInLinux.Multiplex.Servers
import LearnInLinux.Udp.Boardcast
import LearnInLinux.Udp.RingChat
import LearnInLinux.Udp.RingProgress
import LearnInLinux.Udp.Destructor
import LearnInLinux.Udp.UdpServer
import LearnInLinux.TcpUpper
import LearnInLinux.TcpUpper.TcpServer
import LearnInLinux.Ipc.Shm
import LearnInLinux.Ipc.ProcessPool
import LearnInLinux.Ipc.Commands
import LearnInLinux.Ipc.Shutdown
import LearnInLinux.Ipc.Fifo
import LearnInLinux.Ipc.FifoRest
import LearnInLinux.HttpServer
import LearnInLinux.MyShell
import LearnInLinux.Multiplex.FdSetRange
import LearnInLinux.Reactor.Registration
import LearnInLinux.Udp.UdpClient
import LearnInLinux.HttpServer.Handler
import LearnInLinux.MyShell.Spelling
import LearnInLinux.NetCal.CalClient
import LearnInLinux.Reactor.Grammar
import LearnInLinux.NetCal.Myself
import LearnInLinux.NetCal.Package
import LearnInLinux.MyShell.Turn
import LearnInLinux.MyShell.Launch
import LearnInLinux.Multiplex.EpollServer
import LearnInLinux.Multiplex.Rounds
import LearnInLinux.Reactor.Client
import LearnInLinux.Library.Ranking
import LearnInLinux.Pthread.Progress
import LearnInLinux.Pthread.Singleton
import LearnInLinux.Pthread.Tickets
import LearnInLinux.NetCal.TcpServer
import LearnInLinux.HttpServer.Start
import LearnInLinux.TcpPool
import LearnInLinux.TcpPool.TcpClient
